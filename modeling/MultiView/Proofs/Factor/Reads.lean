import MultiView.Proofs.Problem.Evaluation

/-!
# Reads of residuals

`Factor.residual` reads blocks and their entries by position, and what is missing counts as zero. Here is the same rule
with every read checked (`Factor.residual?`): it has a result exactly at blocks that fit the factor, and then it is the
same (`Factor.residual?_eq_some`). So where the sizes were checked, nothing missing is ever read.
-/

namespace MultiView

variable {α : Type}

/-! ## Checked reads -/

/-- The quaternion of exactly four numbers. -/
def Quat.read? : List α → Option (Quat α)
  | [x, y, z, w] => some ⟨x, y, z, w⟩
  | _ => none

/-- The vector of exactly three numbers. -/
def Vec3.read? : List α → Option (Vec3 α)
  | [x, y, z] => some ⟨x, y, z⟩
  | _ => none

/-- The lens of exactly as many parameters as the model has. -/
def CameraModel.lens? : CameraModel → List α → Option (Lens α)
  | simplePinhole, [f, cx, cy] => some ⟨f, f, cx, cy, .none⟩
  | pinhole, [fx, fy, cx, cy] => some ⟨fx, fy, cx, cy, .none⟩
  | simpleRadial, [f, cx, cy, k] => some ⟨f, f, cx, cy, .radial k⟩
  | radial, [f, cx, cy, k1, k2] => some ⟨f, f, cx, cy, .radial2 k1 k2⟩
  | opencv, [fx, fy, cx, cy, k1, k2, p1, p2] => some ⟨fx, fy, cx, cy, .tangential k1 k2 p1 p2⟩
  | _, _ => none

section Fits

variable [Scalar α]

theorem Quat.read?_eq_some {block : List α} {q : Quat α} :
    Quat.read? block = some q ↔ block.length = 4 ∧ Quat.ofList block = q := by
  rcases block with _ | ⟨x, _ | ⟨y, _ | ⟨z, _ | ⟨w, _ | ⟨_, _⟩⟩⟩⟩⟩ <;> simp [read?, ofList]

theorem Vec3.read?_eq_some {block : List α} {v : Vec3 α} :
    Vec3.read? block = some v ↔ block.length = 3 ∧ Vec3.ofList block = v := by
  rcases block with _ | ⟨x, _ | ⟨y, _ | ⟨z, _ | ⟨_, _⟩⟩⟩⟩ <;> simp [read?, ofList]

theorem CameraModel.lens?_eq_some {m : CameraModel} {params : List α} {l : Lens α} :
    m.lens? params = some l ↔ params.length = m.numParams ∧ m.lens params = l := by
  constructor
  · intro h
    unfold lens? at h
    split at h
    all_goals first | exact ⟨rfl, Option.some.inj h⟩ | cases h
  · rintro ⟨hlength, rfl⟩
    match m, params, hlength with
    | .simplePinhole, [_, _, _], _ => rfl
    | .pinhole, [_, _, _, _], _ => rfl
    | .simpleRadial, [_, _, _, _], _ => rfl
    | .radial, [_, _, _, _, _], _ => rfl
    | .opencv, [_, _, _, _, _, _, _, _], _ => rfl

/-! ## Residuals -/

/-- The residual of a factor has the factor's length. -/
theorem Factor.length_residual (f : Factor α) (blocks : List (List α)) :
    (f.residual blocks).length = f.residualDim := by
  cases f <;> rfl

/-- The residual of a factor, `none` if a block is missing or too many, or is not of the length that is read. -/
def Factor.residual? (f : Factor α) (blocks : List (List α)) : Option (List α) :=
  match f, blocks with
  | reprojection model uv, [q, t, x, params] => do
    let pose : Pose α := ⟨← Quat.read? q, ← Vec3.read? t⟩
    let point ← Vec3.read? x
    let lens ← model.lens? params
    return (reprojectionError lens (pose.apply point) uv).toList
  | fixedPose model pose uv, [x, params] => do
    let point ← Vec3.read? x
    let lens ← model.lens? params
    return (reprojectionError lens (pose.apply point) uv).toList
  | rig model uv, [rigQ, rigT, relQ, relT, x, params] => do
    let rigPose : Pose α := ⟨← Quat.read? rigQ, ← Vec3.read? rigT⟩
    let relPose : Pose α := ⟨← Quat.read? relQ, ← Vec3.read? relT⟩
    let point ← Vec3.read? x
    let lens ← model.lens? params
    return (reprojectionError lens ((relPose.comp rigPose).apply point) uv).toList
  | relativePose x1 x2, [q, t] => do
    let rotation ← Quat.read? q
    let direction ← Vec3.read? t
    return [sampsonError rotation direction x1 x2]
  | _, _ => none

/-- A residual with checked reads is the residual at blocks of the lengths that the factor asks for. -/
theorem Factor.residual?_eq_some {f : Factor α} {blocks : List (List α)} {r : List α} :
    f.residual? blocks = some r ↔ f.blockSizes = blocks.map List.length ∧ f.residual blocks = r := by
  unfold residual?
  split
  case h_5 h1 h2 h3 h4 =>
    -- blocks of the factor's sizes are as many as in one of the cases before
    have hnot : f.blockSizes ≠ blocks.map List.length := by
      intro hsizes
      have hcount : blocks.length = f.blockSizes.length := by rw [hsizes, List.length_map]
      match f, blocks, hcount, h1, h2, h3, h4 with
      | reprojection .., [_, _, _, _], _, h1, _, _, _ => exact h1 _ _ _ _ _ _ rfl rfl
      | fixedPose .., [_, _], _, _, h2, _, _ => exact h2 _ _ _ _ _ rfl rfl
      | rig .., [_, _, _, _, _, _], _, _, _, h3, _ => exact h3 _ _ _ _ _ _ _ _ rfl rfl
      | relativePose .., [_, _], _, _, _, _, h4 => exact h4 _ _ _ _ rfl rfl
    simp [hnot]
  all_goals
    simp [Option.bind_eq_some_iff, Quat.read?_eq_some, Vec3.read?_eq_some, CameraModel.lens?_eq_some, blockSizes,
      residual, and_assoc, @eq_comm Nat 4, @eq_comm Nat 3, @eq_comm Nat (CameraModel.numParams _)]

end Fits

end MultiView
