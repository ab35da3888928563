import MultiView.Factor.Jacobian

/-!
# Relations that residuals respect

A residual is an expression in the scalars of its blocks and in the measurements of its factor. Take numbers that vary
with a parameter, and a relation of these to the numbers of another scalar type that arithmetic respects (`Respects`).
Then the relation holds of the residuals at related blocks, of the same factor with related measurements, provided that
nothing singular is divided by (`Respects.residual`). What a residual divides by is `Factor.divisors`.
-/

namespace MultiView

variable {ι α β : Type}

/-! ## Componentwise -/

section Components

variable (R : (ι → α) → β → Prop)

structure Vec2.Rel (a : ι → Vec2 α) (v : Vec2 β) : Prop where
  x : R (fun s => (a s).x) v.x
  y : R (fun s => (a s).y) v.y

structure Vec3.Rel (a : ι → Vec3 α) (v : Vec3 β) : Prop where
  x : R (fun s => (a s).x) v.x
  y : R (fun s => (a s).y) v.y
  z : R (fun s => (a s).z) v.z

structure Mat3.Rel (a : ι → Mat3 α) (m : Mat3 β) : Prop where
  r0 : Vec3.Rel R (fun s => (a s).r0) m.r0
  r1 : Vec3.Rel R (fun s => (a s).r1) m.r1
  r2 : Vec3.Rel R (fun s => (a s).r2) m.r2

structure Quat.Rel (a : ι → Quat α) (q : Quat β) : Prop where
  x : R (fun s => (a s).x) q.x
  y : R (fun s => (a s).y) q.y
  z : R (fun s => (a s).z) q.z
  w : R (fun s => (a s).w) q.w

structure Pose.Rel (a : ι → Pose α) (p : Pose β) : Prop where
  rot : Quat.Rel R (fun s => (a s).rot) p.rot
  trans : Vec3.Rel R (fun s => (a s).trans) p.trans

/-- Distortions of the same kind with related coefficients. -/
inductive Distortion.Rel : (ι → Distortion α) → Distortion β → Prop
  | none : Rel (fun _ => .none) .none
  | radial {k : ι → α} {k' : β} : R k k' → Rel (fun s => .radial (k s)) (.radial k')
  | radial2 {k1 k2 : ι → α} {k1' k2' : β} : R k1 k1' → R k2 k2' →
      Rel (fun s => .radial2 (k1 s) (k2 s)) (.radial2 k1' k2')
  | tangential {k1 k2 p1 p2 : ι → α} {k1' k2' p1' p2' : β} : R k1 k1' → R k2 k2' → R p1 p1' → R p2 p2' →
      Rel (fun s => .tangential (k1 s) (k2 s) (p1 s) (p2 s)) (.tangential k1' k2' p1' p2')

structure Lens.Rel (a : ι → Lens α) (l : Lens β) : Prop where
  fx : R (fun s => (a s).fx) l.fx
  fy : R (fun s => (a s).fy) l.fy
  cx : R (fun s => (a s).cx) l.cx
  cy : R (fun s => (a s).cy) l.cy
  distortion : Distortion.Rel R (fun s => (a s).distortion) l.distortion

variable {R}

theorem Mat3.Rel.transpose {a : ι → Mat3 α} {m : Mat3 β} (ha : Mat3.Rel R a m) :
    Mat3.Rel R (fun s => (a s).transpose) m.transpose :=
  ⟨⟨ha.r0.x, ha.r1.x, ha.r2.x⟩, ⟨ha.r0.y, ha.r1.y, ha.r2.y⟩, ⟨ha.r0.z, ha.r1.z, ha.r2.z⟩⟩

theorem Quat.Rel.im {a : ι → Quat α} {q : Quat β} (ha : Quat.Rel R a q) : Vec3.Rel R (fun s => (a s).im) q.im :=
  ⟨ha.x, ha.y, ha.z⟩

end Components

variable [Scalar α] [Scalar β]

/-! ## Lists of numbers -/

section Lists

/-- Every entry of a list; what is missing counts as zero. -/
def EntriesRel (R : (ι → α) → β → Prop) (a : ι → List α) (entries : List β) : Prop :=
  ∀ j, R (fun s => (a s).getD j 0) (entries.getD j 0)

/-- Every entry of every block. -/
def BlocksRel (R : (ι → α) → β → Prop) (a : ι → List (List α)) (blocks : List (List β)) : Prop :=
  ∀ i, EntriesRel R (fun s => (a s).getD i []) (blocks.getD i [])

variable {R : (ι → α) → β → Prop}

theorem Quat.Rel.ofList {a : ι → List α} {entries : List β} (ha : EntriesRel R a entries) :
    Quat.Rel R (fun s => Quat.ofList (a s)) (Quat.ofList entries) :=
  ⟨ha 0, ha 1, ha 2, ha 3⟩

theorem Vec3.Rel.ofList {a : ι → List α} {entries : List β} (ha : EntriesRel R a entries) :
    Vec3.Rel R (fun s => Vec3.ofList (a s)) (Vec3.ofList entries) :=
  ⟨ha 0, ha 1, ha 2⟩

theorem Pose.Rel.ofLists {a b : ι → List α} {q t : List β} (ha : EntriesRel R a q) (hb : EntriesRel R b t) :
    Pose.Rel R (fun s => ⟨Quat.ofList (a s), Vec3.ofList (b s)⟩) ⟨Quat.ofList q, Vec3.ofList t⟩ :=
  ⟨.ofList ha, .ofList hb⟩

theorem Lens.Rel.ofList (model : CameraModel) {a : ι → List α} {params : List β} (ha : EntriesRel R a params) :
    Lens.Rel R (fun s => model.lens (a s)) (model.lens params) := by
  cases model with
  | simplePinhole => exact ⟨ha 0, ha 0, ha 1, ha 2, .none⟩
  | pinhole => exact ⟨ha 0, ha 1, ha 2, ha 3, .none⟩
  | simpleRadial => exact ⟨ha 0, ha 0, ha 1, ha 2, .radial (ha 3)⟩
  | radial => exact ⟨ha 0, ha 0, ha 1, ha 2, .radial2 (ha 3) (ha 4)⟩
  | opencv => exact ⟨ha 0, ha 1, ha 2, ha 3, .tangential (ha 4) (ha 5) (ha 6) (ha 7)⟩

end Lists

/-! ## Divisors -/

/-- What the rotation matrix divides by: the squared norm, summed from the real part on. -/
def Quat.matrixDivisor (q : Quat α) : α := q.w * q.w + q.x * q.x + q.y * q.y + q.z * q.z

namespace Factor

/-- What the squared Sampson error has in its denominator. -/
def sampsonDenominator (rotation : Quat α) (trans : Vec3 α) (x1 x2 : Vec2 α) : α :=
  let essential := (Mat3.skew trans).mul rotation.toMat3
  let line2 := essential.mulVec x1.homogeneous
  let line1 := essential.transpose.mulVec x2.homogeneous
  line2.x * line2.x + line2.y * line2.y + line1.x * line1.x + line1.y * line1.y

/-- What the residual divides by: the depth of the point in the camera frame; for two views the squared norm of the
quaternion and the denominator of the Sampson error. -/
def divisors (f : Factor α) (blocks : List (List α)) : List α :=
  let block (i : Nat) : List α := blocks.getD i []
  match f with
  | reprojection _ _ =>
    let pose : Pose α := ⟨.ofList (block 0), .ofList (block 1)⟩
    [(pose.apply (.ofList (block 2))).z]
  | fixedPose _ pose _ => [(pose.apply (.ofList (block 0))).z]
  | rig _ _ =>
    let rigPose : Pose α := ⟨.ofList (block 0), .ofList (block 1)⟩
    let relPose : Pose α := ⟨.ofList (block 2), .ofList (block 3)⟩
    [((relPose.comp rigPose).apply (.ofList (block 4))).z]
  | relativePose x1 x2 =>
    let rotation : Quat α := .ofList (block 0)
    [rotation.matrixDivisor, sampsonDenominator rotation (.ofList (block 1)) x1 x2]

end Factor

/-! ## Arithmetic -/

/-- Arithmetic respects the relation between numbers that vary and numbers; division does if the divisor is `regular` at
the parameter `base`. -/
structure Respects (R : (ι → α) → β → Prop) (regular : α → Prop) (base : ι) : Prop where
  zero : R (fun _ => 0) 0
  one : R (fun _ => 1) 1
  neg {a : ι → α} {x : β} : R a x → R (fun s => -a s) (-x)
  add {a b : ι → α} {x y : β} : R a x → R b y → R (fun s => a s + b s) (x + y)
  sub {a b : ι → α} {x y : β} : R a x → R b y → R (fun s => a s - b s) (x - y)
  mul {a b : ι → α} {x y : β} : R a x → R b y → R (fun s => a s * b s) (x * y)
  div {a b : ι → α} {x y : β} : regular (b base) → R a x → R b y → R (fun s => a s / b s) (x / y)

namespace Respects

variable {R : (ι → α) → β → Prop} {regular : α → Prop} {base : ι} (h : Respects R regular base)

include h

/-! ## Geometry -/

theorem two : R (fun _ => Scalar.two) Scalar.two := h.add h.one h.one

theorem vec2_add {a b : ι → Vec2 α} {v w : Vec2 β} (ha : Vec2.Rel R a v) (hb : Vec2.Rel R b w) :
    Vec2.Rel R (fun s => a s + b s) (v + w) :=
  ⟨h.add ha.x hb.x, h.add ha.y hb.y⟩

theorem vec2_sub {a b : ι → Vec2 α} {v w : Vec2 β} (ha : Vec2.Rel R a v) (hb : Vec2.Rel R b w) :
    Vec2.Rel R (fun s => a s - b s) (v - w) :=
  ⟨h.sub ha.x hb.x, h.sub ha.y hb.y⟩

theorem homogeneous {a : ι → Vec2 α} {v : Vec2 β} (ha : Vec2.Rel R a v) :
    Vec3.Rel R (fun s => (a s).homogeneous) v.homogeneous :=
  ⟨ha.x, ha.y, h.one⟩

theorem vec3_add {a b : ι → Vec3 α} {v w : Vec3 β} (ha : Vec3.Rel R a v) (hb : Vec3.Rel R b w) :
    Vec3.Rel R (fun s => a s + b s) (v + w) :=
  ⟨h.add ha.x hb.x, h.add ha.y hb.y, h.add ha.z hb.z⟩

theorem vec3_scale {a : ι → Vec3 α} {b : ι → α} {v : Vec3 β} {x : β} (ha : Vec3.Rel R a v) (hb : R b x) :
    Vec3.Rel R (fun s => (a s).scale (b s)) (v.scale x) :=
  ⟨h.mul ha.x hb, h.mul ha.y hb, h.mul ha.z hb⟩

theorem dot {a b : ι → Vec3 α} {v w : Vec3 β} (ha : Vec3.Rel R a v) (hb : Vec3.Rel R b w) :
    R (fun s => (a s).dot (b s)) (v.dot w) :=
  h.add (h.add (h.mul ha.x hb.x) (h.mul ha.y hb.y)) (h.mul ha.z hb.z)

theorem cross {a b : ι → Vec3 α} {v w : Vec3 β} (ha : Vec3.Rel R a v) (hb : Vec3.Rel R b w) :
    Vec3.Rel R (fun s => (a s).cross (b s)) (v.cross w) where
  x := h.sub (h.mul ha.y hb.z) (h.mul ha.z hb.y)
  y := h.sub (h.mul ha.z hb.x) (h.mul ha.x hb.z)
  z := h.sub (h.mul ha.x hb.y) (h.mul ha.y hb.x)

theorem perspective {a : ι → Vec3 α} {v : Vec3 β} (hdepth : regular (a base).z) (ha : Vec3.Rel R a v) :
    Vec2.Rel R (fun s => (a s).perspective) v.perspective :=
  ⟨h.div hdepth ha.x ha.z, h.div hdepth ha.y ha.z⟩

theorem mat3_scale {a : ι → Mat3 α} {b : ι → α} {m : Mat3 β} {x : β} (ha : Mat3.Rel R a m) (hb : R b x) :
    Mat3.Rel R (fun s => (a s).scale (b s)) (m.scale x) :=
  ⟨h.vec3_scale ha.r0 hb, h.vec3_scale ha.r1 hb, h.vec3_scale ha.r2 hb⟩

theorem mulVec {a : ι → Mat3 α} {b : ι → Vec3 α} {m : Mat3 β} {v : Vec3 β} (ha : Mat3.Rel R a m)
    (hb : Vec3.Rel R b v) : Vec3.Rel R (fun s => (a s).mulVec (b s)) (m.mulVec v) :=
  ⟨h.dot ha.r0 hb, h.dot ha.r1 hb, h.dot ha.r2 hb⟩

theorem mat3_mul {a b : ι → Mat3 α} {m n : Mat3 β} (ha : Mat3.Rel R a m) (hb : Mat3.Rel R b n) :
    Mat3.Rel R (fun s => (a s).mul (b s)) (m.mul n) :=
  ⟨h.mulVec hb.transpose ha.r0, h.mulVec hb.transpose ha.r1, h.mulVec hb.transpose ha.r2⟩

theorem skew {a : ι → Vec3 α} {v : Vec3 β} (ha : Vec3.Rel R a v) :
    Mat3.Rel R (fun s => Mat3.skew (a s)) (Mat3.skew v) :=
  ⟨⟨h.zero, h.neg ha.z, ha.y⟩, ⟨ha.z, h.zero, h.neg ha.x⟩, ⟨h.neg ha.y, ha.x, h.zero⟩⟩

theorem quat_mul {a b : ι → Quat α} {p q : Quat β} (ha : Quat.Rel R a p) (hb : Quat.Rel R b q) :
    Quat.Rel R (fun s => (a s).mul (b s)) (p.mul q) where
  x := h.sub (h.add (h.add (h.mul ha.w hb.x) (h.mul ha.x hb.w)) (h.mul ha.y hb.z)) (h.mul ha.z hb.y)
  y := h.add (h.add (h.sub (h.mul ha.w hb.y) (h.mul ha.x hb.z)) (h.mul ha.y hb.w)) (h.mul ha.z hb.x)
  z := h.add (h.sub (h.add (h.mul ha.w hb.z) (h.mul ha.x hb.y)) (h.mul ha.y hb.x)) (h.mul ha.z hb.w)
  w := h.sub (h.sub (h.sub (h.mul ha.w hb.w) (h.mul ha.x hb.x)) (h.mul ha.y hb.y)) (h.mul ha.z hb.z)

theorem rotate {a : ι → Quat α} {b : ι → Vec3 α} {q : Quat β} {v : Vec3 β} (ha : Quat.Rel R a q)
    (hb : Vec3.Rel R b v) : Vec3.Rel R (fun s => (a s).rotate (b s)) (q.rotate v) := by
  have htwice := h.vec3_scale (h.cross ha.im hb) h.two
  exact h.vec3_add (h.vec3_add (h.vec3_scale htwice ha.w) (h.cross ha.im htwice)) hb

theorem toMat3 {a : ι → Quat α} {q : Quat β} (hnorm : regular (a base).matrixDivisor) (ha : Quat.Rel R a q) :
    Mat3.Rel R (fun s => (a s).toMat3) q.toMat3 := by
  have haa := h.mul ha.w ha.w
  have hbb := h.mul ha.x ha.x
  have hcc := h.mul ha.y ha.y
  have hdd := h.mul ha.z ha.z
  have hab := h.mul ha.w ha.x
  have hac := h.mul ha.w ha.y
  have had := h.mul ha.w ha.z
  have hbc := h.mul ha.x ha.y
  have hbd := h.mul ha.x ha.z
  have hcd := h.mul ha.y ha.z
  have hinverse := h.div hnorm h.one (h.add (h.add (h.add haa hbb) hcc) hdd)
  refine h.mat3_scale ⟨⟨?_, ?_, ?_⟩, ⟨?_, ?_, ?_⟩, ⟨?_, ?_, ?_⟩⟩ hinverse
  · exact h.sub (h.sub (h.add haa hbb) hcc) hdd
  · exact h.mul h.two (h.sub hbc had)
  · exact h.mul h.two (h.add hac hbd)
  · exact h.mul h.two (h.add had hbc)
  · exact h.sub (h.add (h.sub haa hbb) hcc) hdd
  · exact h.mul h.two (h.sub hcd hab)
  · exact h.mul h.two (h.sub hbd hac)
  · exact h.mul h.two (h.add hab hcd)
  · exact h.add (h.sub (h.sub haa hbb) hcc) hdd

theorem apply {a : ι → Pose α} {b : ι → Vec3 α} {p : Pose β} {v : Vec3 β} (ha : Pose.Rel R a p)
    (hb : Vec3.Rel R b v) : Vec3.Rel R (fun s => (a s).apply (b s)) (p.apply v) :=
  h.vec3_add (h.rotate ha.rot hb) ha.trans

theorem comp {a b : ι → Pose α} {p q : Pose β} (ha : Pose.Rel R a p) (hb : Pose.Rel R b q) :
    Pose.Rel R (fun s => (a s).comp (b s)) (p.comp q) :=
  ⟨h.quat_mul ha.rot hb.rot, h.vec3_add (h.rotate ha.rot hb.trans) ha.trans⟩

/-! ## Cameras -/

theorem offset {d : ι → Distortion α} {a : ι → Vec2 α} {e : Distortion β} {v : Vec2 β} (hd : Distortion.Rel R d e)
    (ha : Vec2.Rel R a v) : Vec2.Rel R (fun s => (d s).offset (a s)) (e.offset v) := by
  have hx2 := h.mul ha.x ha.x
  have hy2 := h.mul ha.y ha.y
  have hr2 := h.add hx2 hy2
  cases hd with
  | none => exact ⟨h.zero, h.zero⟩
  | radial hk =>
    have hbend := h.mul hk hr2
    exact ⟨h.mul ha.x hbend, h.mul ha.y hbend⟩
  | radial2 hk1 hk2 =>
    have hbend := h.add (h.mul hk1 hr2) (h.mul (h.mul hk2 hr2) hr2)
    exact ⟨h.mul ha.x hbend, h.mul ha.y hbend⟩
  | tangential hk1 hk2 hp1 hp2 =>
    have hxy := h.mul ha.x ha.y
    have hbend := h.add (h.mul hk1 hr2) (h.mul (h.mul hk2 hr2) hr2)
    constructor
    · exact h.add (h.add (h.mul ha.x hbend) (h.mul (h.mul h.two hp1) hxy)) (h.mul hp2 (h.add hr2 (h.mul h.two hx2)))
    · exact h.add (h.add (h.mul ha.y hbend) (h.mul (h.mul h.two hp2) hxy)) (h.mul hp1 (h.add hr2 (h.mul h.two hy2)))

theorem project {l : ι → Lens α} {a : ι → Vec2 α} {m : Lens β} {v : Vec2 β} (hl : Lens.Rel R l m)
    (ha : Vec2.Rel R a v) : Vec2.Rel R (fun s => (l s).project (a s)) (m.project v) := by
  have hbent := h.vec2_add ha (h.offset hl.distortion ha)
  exact ⟨h.add (h.mul hl.fx hbent.x) hl.cx, h.add (h.mul hl.fy hbent.y) hl.cy⟩

/-! ## Residuals -/

theorem reprojectionError {l : ι → Lens α} {a : ι → Vec3 α} {b : ι → Vec2 α} {m : Lens β} {v : Vec3 β} {uv : Vec2 β}
    (hdepth : regular (a base).z) (hl : Lens.Rel R l m) (ha : Vec3.Rel R a v) (hb : Vec2.Rel R b uv) :
    Vec2.Rel R (fun s => Factor.reprojectionError (l s) (a s) (b s)) (Factor.reprojectionError m v uv) :=
  h.vec2_sub (h.project hl (h.perspective hdepth ha)) hb

theorem sampsonError {a : ι → Quat α} {b : ι → Vec3 α} {c d : ι → Vec2 α} {q : Quat β} {t : Vec3 β} {x1 x2 : Vec2 β}
    (hnorm : regular (a base).matrixDivisor)
    (hdenominator : regular (Factor.sampsonDenominator (a base) (b base) (c base) (d base)))
    (ha : Quat.Rel R a q) (hb : Vec3.Rel R b t) (hc : Vec2.Rel R c x1) (hd : Vec2.Rel R d x2) :
    R (fun s => Factor.sampsonError (a s) (b s) (c s) (d s)) (Factor.sampsonError q t x1 x2) := by
  have hessential := h.mat3_mul (h.skew hb) (h.toMat3 hnorm ha)
  have hline2 := h.mulVec hessential (h.homogeneous hc)
  have hline1 := h.mulVec hessential.transpose (h.homogeneous hd)
  have hform := h.dot (h.homogeneous hd) hline2
  refine h.div hdenominator (h.mul hform hform) ?_
  exact h.add (h.add (h.add (h.mul hline2.x hline2.x) (h.mul hline2.y hline2.y)) (h.mul hline1.x hline1.x))
    (h.mul hline1.y hline1.y)

theorem toList {a : ι → Vec2 α} {v : Vec2 β} (ha : Vec2.Rel R a v) (row : Nat) :
    R (fun s => (a s).toList.getD row 0) (v.toList.getD row 0) := by
  match row with
  | 0 => exact ha.x
  | 1 => exact ha.y
  | _ + 2 => exact h.zero

/-- Residuals at related blocks are related, where nothing singular is divided by. -/
theorem residual {γ : Type} {l : γ → α} {m : γ → β} (hconst : ∀ c, R (fun _ => l c) (m c)) (f : Factor γ)
    {a : ι → List (List α)} {blocks : List (List β)} (ha : BlocksRel R a blocks)
    (hdivisors : ∀ x ∈ (f.map l).divisors (a base), regular x) (row : Nat) :
    R (fun s => ((f.map l).residual (a s)).getD row 0) (((f.map m).residual blocks).getD row 0) := by
  have hpixel : ∀ uv : Vec2 γ, Vec2.Rel R (fun _ => uv.map l) (uv.map m) := fun uv => ⟨hconst uv.x, hconst uv.y⟩
  cases f with
  | reprojection model uv =>
    have hpoint := h.apply (.ofLists (ha 0) (ha 1)) (.ofList (ha 2))
    have hdepth := hdivisors _ (List.mem_singleton.2 rfl)
    exact h.toList (h.reprojectionError hdepth (.ofList model (ha 3)) hpoint (hpixel uv)) row
  | fixedPose model pose uv =>
    have hpose : Pose.Rel R (fun _ => pose.map l) (pose.map m) :=
      ⟨⟨hconst _, hconst _, hconst _, hconst _⟩, ⟨hconst _, hconst _, hconst _⟩⟩
    have hpoint := h.apply hpose (.ofList (ha 0))
    have hdepth := hdivisors _ (List.mem_singleton.2 rfl)
    exact h.toList (h.reprojectionError hdepth (.ofList model (ha 1)) hpoint (hpixel uv)) row
  | rig model uv =>
    have hpose := h.comp (.ofLists (ha 2) (ha 3)) (.ofLists (ha 0) (ha 1))
    have hpoint := h.apply hpose (.ofList (ha 4))
    have hdepth := hdivisors _ (List.mem_singleton.2 rfl)
    exact h.toList (h.reprojectionError hdepth (.ofList model (ha 5)) hpoint (hpixel uv)) row
  | relativePose x1 x2 =>
    match row with
    | 0 =>
      have hnorm := hdivisors _ (.head _)
      have hdenominator := hdivisors _ (.tail _ (.head _))
      exact h.sampsonError hnorm hdenominator (.ofList (ha 0)) (.ofList (ha 1)) (hpixel x1) (hpixel x2)
    | _ + 1 => exact h.zero

end Respects

end MultiView
