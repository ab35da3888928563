import MultiView.Proofs.Camera.Undistort
import MultiView.Proofs.Camera.Valid

/-!
# Back-projection of moderate distortions

A distortion with small coefficients (`Distortion.Moderate`) contracts around each point near the optical axis
(`Distortion.Moderate.contracts`): how much a product or a sum of quantities changes is bounded by how large they are
and how much each of them changes (`Varies`), and a distortion is made of products and sums of the coordinates. Hence
undoing a projection gives the point back up to the tolerance of the iteration (`Camera.unproject_project`).
-/

namespace MultiView

/-! ## Quantities of two points -/

/-- A quantity that is `u` at one point and `v` at another: not above a size at either, and its change bounded by the
changes of the coordinates. -/
structure Varies (p q : Vec2 ℝ) (size along across u v : ℝ) : Prop where
  left : |u| ≤ size
  right : |v| ≤ size
  change : |u - v| ≤ along * |p.x - q.x| + across * |p.y - q.y|

namespace Varies

variable {p q : Vec2 ℝ} {s a b s' a' b' u v u' v' c : ℝ}

theorem const (hc : |c| ≤ s) : Varies p q s 0 0 c c := ⟨hc, hc, by simp⟩

theorem x (hp : |p.x| ≤ s) (hq : |q.x| ≤ s) : Varies p q s 1 0 p.x q.x := ⟨hp, hq, by simp⟩

theorem y (hp : |p.y| ≤ s) (hq : |q.y| ≤ s) : Varies p q s 0 1 p.y q.y := ⟨hp, hq, by simp⟩

theorem mono (h : Varies p q s a b u v) (hs : s ≤ s') (ha : a ≤ a') (hb : b ≤ b') : Varies p q s' a' b' u v where
  left := h.left.trans hs
  right := h.right.trans hs
  change := h.change.trans (by gcongr)

theorem add (h : Varies p q s a b u v) (h' : Varies p q s' a' b' u' v') :
    Varies p q (s + s') (a + a') (b + b') (u + u') (v + v') where
  left := (abs_add_le u u').trans (add_le_add h.left h'.left)
  right := (abs_add_le v v').trans (add_le_add h.right h'.right)
  change := by
    have hsplit : u + u' - (v + v') = (u - v) + (u' - v') := by ring
    rw [hsplit]
    have hsum := abs_add_le (u - v) (u' - v')
    linarith [h.change, h'.change]

theorem mul (h : Varies p q s a b u v) (h' : Varies p q s' a' b' u' v') :
    Varies p q (s * s') (s * a' + s' * a) (s * b' + s' * b) (u * u') (v * v') where
  left := by
    rw [abs_mul]
    exact mul_le_mul h.left h'.left (abs_nonneg u') ((abs_nonneg u).trans h.left)
  right := by
    rw [abs_mul]
    exact mul_le_mul h.right h'.right (abs_nonneg v') ((abs_nonneg v).trans h.right)
  change := by
    have hsplit : u * u' - v * v' = u * (u' - v') + v' * (u - v) := by ring
    have hfirst : |u| * |u' - v'| ≤ s * (a' * |p.x - q.x| + b' * |p.y - q.y|) :=
      mul_le_mul h.left h'.change (abs_nonneg _) ((abs_nonneg u).trans h.left)
    have hsecond : |v'| * |u - v| ≤ s' * (a * |p.x - q.x| + b * |p.y - q.y|) :=
      mul_le_mul h'.right h.change (abs_nonneg _) ((abs_nonneg v').trans h'.right)
    calc |u * u' - v * v'| ≤ |u * (u' - v')| + |v' * (u - v)| := hsplit ▸ abs_add_le _ _
      _ = |u| * |u' - v'| + |v'| * |u - v| := by rw [abs_mul, abs_mul]
      _ ≤ (s * a' + s' * a) * |p.x - q.x| + (s * b' + s' * b) * |p.y - q.y| := by linarith

end Varies

/-! ## Distortions with zero coefficients -/

namespace Distortion

theorem offset_radial_zero : (radial 0 : Distortion ℝ).offset = none.offset := by
  funext p
  ext <;> simp only [offset] <;> ring

theorem offset_radial2_zero (k : ℝ) : (radial2 k 0).offset = (radial k).offset := by
  funext p
  ext <;> simp only [offset] <;> ring

theorem offset_tangential_zero (k1 k2 : ℝ) : (tangential k1 k2 0 0).offset = (radial2 k1 k2).offset := by
  funext p
  ext <;> simp only [offset] <;> ring

/-! ## Moderate distortions -/

/-- Coefficients of at most a tenth, a twentieth, and a hundredth for tangential ones. -/
inductive Moderate : Distortion ℝ → Prop
  | none : Moderate .none
  | radial {k : ℝ} (hk : |k| ≤ 1 / 10) : Moderate (.radial k)
  | radial2 {k1 k2 : ℝ} (hk1 : |k1| ≤ 1 / 10) (hk2 : |k2| ≤ 1 / 20) : Moderate (.radial2 k1 k2)
  | tangential {k1 k2 p1 p2 : ℝ} (hk1 : |k1| ≤ 1 / 10) (hk2 : |k2| ≤ 1 / 20) (hp1 : |p1| ≤ 1 / 100)
      (hp2 : |p2| ≤ 1 / 100) : Moderate (.tangential k1 k2 p1 p2)

/-- Every distortion is a tangential one, with zeros for the coefficients that it lacks. -/
theorem exists_tangential_of_moderate {d : Distortion ℝ} (h : d.Moderate) :
    ∃ k1 k2 p1 p2, (tangential k1 k2 p1 p2).Moderate ∧ d.offset = (tangential k1 k2 p1 p2).offset := by
  cases h with
  | none =>
    refine ⟨0, 0, 0, 0, .tangential (by norm_num) (by norm_num) (by norm_num) (by norm_num), ?_⟩
    rw [offset_tangential_zero, offset_radial2_zero, offset_radial_zero]
  | @radial k hk =>
    refine ⟨k, 0, 0, 0, .tangential hk (by norm_num) (by norm_num) (by norm_num), ?_⟩
    rw [offset_tangential_zero, offset_radial2_zero]
  | @radial2 k1 k2 hk1 hk2 =>
    refine ⟨k1, k2, 0, 0, .tangential hk1 hk2 (by norm_num) (by norm_num), ?_⟩
    rw [offset_tangential_zero]
  | tangential hk1 hk2 hp1 hp2 => exact ⟨_, _, _, _, .tangential hk1 hk2 hp1 hp2, rfl⟩

theorem moderate_swap {k1 k2 p1 p2 : ℝ} (h : (tangential k1 k2 p1 p2).Moderate) :
    (tangential k1 k2 p2 p1).Moderate := by
  obtain _ | _ | _ | ⟨hk1, hk2, hp1, hp2⟩ := h
  exact .tangential hk1 hk2 hp2 hp1

/-- Exchanging the coordinates exchanges the tangential coefficients. -/
theorem offset_tangential_y (k1 k2 p1 p2 : ℝ) (p : Vec2 ℝ) :
    ((tangential k1 k2 p1 p2).offset p).y = ((tangential k1 k2 p2 p1).offset ⟨p.y, p.x⟩).x := by
  simp only [offset]
  ring

/-- The first coordinate of a distortion, at two points of a square around the axis. -/
theorem varies_offset_x {k1 k2 p1 p2 s : ℝ} (h : (tangential k1 k2 p1 p2).Moderate) {p q : Vec2 ℝ} (hpx : |p.x| ≤ s)
    (hpy : |p.y| ≤ s) (hqx : |q.x| ≤ s) (hqy : |q.y| ≤ s) :
    Varies p q (s ^ 3 / 5 + s ^ 5 / 5 + 3 * s ^ 2 / 50) (2 * s ^ 2 / 5 + 3 * s ^ 4 / 5 + 2 * s / 25)
      (s ^ 2 / 5 + 2 * s ^ 4 / 5 + s / 25) ((tangential k1 k2 p1 p2).offset p).x
      ((tangential k1 k2 p1 p2).offset q).x := by
  obtain _ | _ | _ | ⟨hk1, hk2, hp1, hp2⟩ := h
  have hx : Varies p q _ _ _ p.x q.x := .x hpx hqx
  have hy : Varies p q _ _ _ p.y q.y := .y hpy hqy
  have hr2 := (hx.mul hx).add (hy.mul hy)
  have hbend := ((Varies.const hk1).mul hr2).add (((Varies.const hk2).mul hr2).mul hr2)
  have htwo : Varies p q 2 0 0 (Scalar.two : ℝ) Scalar.two := .const (by norm_num [Scalar.two_eq])
  have hfirst := (htwo.mul (.const hp1)).mul (hx.mul hy)
  have hsecond := (Varies.const hp2).mul (hr2.add (htwo.mul (hx.mul hx)))
  exact (((hx.mul hbend).add hfirst).add hsecond).mono (le_of_eq (by ring)) (le_of_eq (by ring)) (le_of_eq (by ring))

/-- How long each coordinate of a distortion is in a square around the axis. -/
theorem Moderate.abs_offset_le {d : Distortion ℝ} (h : d.Moderate) {p : Vec2 ℝ} {s : ℝ} (hx : |p.x| ≤ s)
    (hy : |p.y| ≤ s) :
    |(d.offset p).x| ≤ s ^ 3 / 5 + s ^ 5 / 5 + 3 * s ^ 2 / 50 ∧
      |(d.offset p).y| ≤ s ^ 3 / 5 + s ^ 5 / 5 + 3 * s ^ 2 / 50 := by
  obtain ⟨k1, k2, p1, p2, htangential, hd⟩ := exists_tangential_of_moderate h
  rw [hd, offset_tangential_y]
  exact ⟨(varies_offset_x htangential hx hy hx hy).left,
    (varies_offset_x (p := ⟨p.y, p.x⟩) (q := ⟨p.y, p.x⟩) (moderate_swap htangential) hy hx hy hx).left⟩

/-- How long a distortion is in a square around the axis. -/
theorem Moderate.taxicab_offset_le {d : Distortion ℝ} (h : d.Moderate) {p : Vec2 ℝ} {s : ℝ} (hx : |p.x| ≤ s)
    (hy : |p.y| ≤ s) : (d.offset p).taxicab ≤ 2 * (s ^ 3 / 5 + s ^ 5 / 5 + 3 * s ^ 2 / 50) := by
  obtain ⟨hfirst, hsecond⟩ := h.abs_offset_le hx hy
  rw [Vec2.taxicab_eq]
  linarith

/-- How much a distortion changes in a square around the axis. -/
theorem Moderate.taxicab_offset_sub_le {d : Distortion ℝ} (h : d.Moderate) {p q : Vec2 ℝ} {s : ℝ} (hpx : |p.x| ≤ s)
    (hpy : |p.y| ≤ s) (hqx : |q.x| ≤ s) (hqy : |q.y| ≤ s) :
    (d.offset p - d.offset q).taxicab ≤ (3 * s ^ 2 / 5 + s ^ 4 + 3 * s / 25) * (p - q).taxicab := by
  obtain ⟨k1, k2, p1, p2, htangential, hd⟩ := exists_tangential_of_moderate h
  have hfirst := (varies_offset_x htangential hpx hpy hqx hqy).change
  have hsecond :=
    (varies_offset_x (p := ⟨p.y, p.x⟩) (q := ⟨q.y, q.x⟩) (moderate_swap htangential) hpy hpx hqy hqx).change
  rw [hd, Vec2.taxicab_eq, Vec2.taxicab_eq, Vec2.sub_x, Vec2.sub_y, Vec2.sub_x, Vec2.sub_y, offset_tangential_y,
    offset_tangential_y]
  linarith

/-- A moderate distortion contracts around each point near the axis, where it is short. -/
theorem Moderate.contracts {d : Distortion ℝ} (h : d.Moderate) {p : Vec2 ℝ} (hp : p.x ^ 2 + p.y ^ 2 ≤ 1 / 4) :
    (d.offset p).taxicab ≤ 1 / 10 ∧ Undistort.Contracts d.offset p (d.offset p).taxicab (1 / 2) := by
  have hx : |p.x| ≤ 1 / 2 := abs_le_of_sq_le_sq (by nlinarith [sq_nonneg p.y]) (by norm_num)
  have hy : |p.y| ≤ 1 / 2 := abs_le_of_sq_le_sq (by nlinarith [sq_nonneg p.x]) (by norm_num)
  have hshort : (d.offset p).taxicab ≤ 1 / 10 := (h.taxicab_offset_le hx hy).trans (by norm_num)
  refine ⟨hshort, by norm_num, by norm_num, fun q hq => ?_⟩
  -- the distance that the iteration may go from `p` keeps it in a slightly larger square
  have hnear := hq.trans hshort
  rw [Vec2.taxicab_eq, Vec2.sub_x, Vec2.sub_y] at hnear
  have hqx : |q.x| ≤ 3 / 5 := by linarith [abs_sub_abs_le_abs_sub q.x p.x, abs_nonneg (q.y - p.y)]
  have hqy : |q.y| ≤ 3 / 5 := by linarith [abs_sub_abs_le_abs_sub q.y p.y, abs_nonneg (q.x - p.x)]
  refine (h.taxicab_offset_sub_le hqx hqy (hx.trans (by norm_num)) (hy.trans (by norm_num))).trans ?_
  exact mul_le_mul_of_nonneg_right (by norm_num) (Vec2.taxicab_nonneg _)

/-- Undoing a moderate distortion gives the point back up to the tolerance. -/
theorem Moderate.undistort_offset {d : Distortion ℝ} (h : d.Moderate) {p : Vec2 ℝ} (hp : p.x ^ 2 + p.y ^ 2 ≤ 1 / 4) :
    (undistort d.offset (p + d.offset p) - p).taxicab ≤ 1 / 10 ^ 10 := by
  obtain ⟨hshort, hcontracts⟩ := h.contracts hp
  refine hcontracts.undistort.trans (max_le ?_ ?_)
  · rw [Undistort.tolerance_eq]
    norm_num
  · -- a hundred halvings of at most a tenth
    calc (1 / 2 : ℝ) ^ Undistort.maxPasses * (d.offset p).taxicab
        ≤ (1 / 2) ^ Undistort.maxPasses * (1 / 10) := by gcongr
      _ ≤ 1 / 10 ^ 10 := by norm_num [Undistort.maxPasses]

/-- Without distortion nothing has to be undone. -/
theorem undistort_none (p : Vec2 ℝ) : undistort (none : Distortion ℝ).offset p = p := by
  have hstep : p - (none : Distortion ℝ).offset p = p := by ext <;> simp [offset]
  have hshort : (p - p).taxicab < Undistort.tolerance := by
    rw [Vec2.taxicab_sub_self, Undistort.tolerance_eq]
    norm_num
  rw [undistort, Undistort.maxPasses, Undistort.iterate]
  simp only [hstep, hshort, if_true]

end Distortion

/-! ## Cameras -/

/-- The focal lengths of a lens are parameters. -/
theorem CameraModel.exists_focal (m : CameraModel) (params : List ℝ) :
    (∃ i ∈ m.focalIndices, (m.lens params).fx = params.getD i 0) ∧
      ∃ i ∈ m.focalIndices, (m.lens params).fy = params.getD i 0 := by
  cases m with
  | pinhole | opencv => exact ⟨⟨0, by decide, rfl⟩, 1, by decide, rfl⟩
  | simplePinhole | simpleRadial | radial => exact ⟨⟨0, by decide, rfl⟩, 0, by decide, rfl⟩

theorem Camera.Valid.focal_pos {c : Camera ℝ} (h : c.Valid) :
    0 < (c.model.lens c.params).fx ∧ 0 < (c.model.lens c.params).fy := by
  have hfocal : ∀ i ∈ c.model.focalIndices, 0 < c.params.getD i 0 := fun i hi => by
    have hpositive := h.focal i hi
    rw [Scalar.isPositive, Bool.and_eq_true, decide_eq_true_eq] at hpositive
    exact hpositive.2
  obtain ⟨⟨i, hi, hx⟩, j, hj, hy⟩ := c.model.exists_focal c.params
  exact ⟨hx ▸ hfocal i hi, hy ▸ hfocal j hj⟩

/-- What a lens back-projects is the point whose distortion is undone. -/
theorem Lens.unproject_project {l : Lens ℝ} (hx : 0 < l.fx) (hy : 0 < l.fy) (p : Vec2 ℝ) :
    l.unproject (l.project p) = undistort l.distortion.offset (p + l.distortion.offset p) := by
  rw [unproject, project]
  congr 1
  ext
  · simp [hx.ne']
  · simp [hy.ne']

/-- A camera with moderate distortion back-projects the pixel of a point near the optical axis to the point, up to the
tolerance; a camera without distortion does so exactly. -/
theorem Camera.unproject_project_near {c : Camera ℝ} (hc : c.Valid) :
    ((c.model.lens c.params).distortion.Moderate → ∀ p : Vec2 ℝ, p.x ^ 2 + p.y ^ 2 ≤ 1 / 4 →
      |(c.unproject (c.project p)).x - p.x| + |(c.unproject (c.project p)).y - p.y| ≤ 1 / 10 ^ 10) ∧
    (c.model = .simplePinhole ∨ c.model = .pinhole → ∀ p : Vec2 ℝ, c.unproject (c.project p) = p) := by
  obtain ⟨hx, hy⟩ := hc.focal_pos
  have hlens : ∀ p, c.unproject (c.project p) = _ := Lens.unproject_project hx hy
  refine ⟨fun hmoderate p hp => ?_, fun hmodel p => ?_⟩
  · have hnear := hmoderate.undistort_offset hp
    rwa [← hlens, Vec2.taxicab_eq, Vec2.sub_x, Vec2.sub_y] at hnear
  · have hnone : (c.model.lens c.params).distortion = .none := by
      rcases hmodel with h | h <;> rw [h] <;> rfl
    have hsame : p + (Distortion.none : Distortion ℝ).offset p = p := by ext <;> simp [Distortion.offset]
    rw [hlens, hnone, hsame, Distortion.undistort_none]

/-- A camera with all coefficients as large as is moderate. -/
noncomputable def Camera.bent : Camera ℝ where
  model := .opencv
  params := [900, 880, 320, 240, -Scalar.decimal 1 1, Scalar.decimal 5 2, Scalar.decimal 1 2, -Scalar.decimal 1 2]

/-- The same camera without distortion. -/
noncomputable def Camera.straight : Camera ℝ where
  model := .pinhole
  params := [900, 880, 320, 240]

theorem Camera.valid_bent : bent.Valid := by
  refine ⟨rfl, fun i hi => ?_⟩
  rcases List.mem_pair.1 hi with rfl | rfl <;> exact decide_eq_true (by norm_num [bent, param])

theorem Camera.valid_straight : straight.Valid := by
  refine ⟨rfl, fun i hi => ?_⟩
  rcases List.mem_pair.1 hi with rfl | rfl <;> exact decide_eq_true (by norm_num [straight, param])

theorem Camera.moderate_bent : (bent.model.lens bent.params).distortion.Moderate := by
  refine .tangential ?_ ?_ ?_ ?_ <;> norm_num [bent, Scalar.decimal]

theorem Camera.unproject_project_near_bent :
    |(bent.unproject (bent.project ⟨3 / 10, 2 / 5⟩)).x - 3 / 10| +
        |(bent.unproject (bent.project ⟨3 / 10, 2 / 5⟩)).y - 2 / 5| ≤ 1 / 10 ^ 10 ∧
      straight.unproject (straight.project ⟨3, 4⟩) = ⟨3, 4⟩ :=
  ⟨(unproject_project_near valid_bent).1 moderate_bent ⟨3 / 10, 2 / 5⟩ (by norm_num),
    (unproject_project_near valid_straight).2 (.inr rfl) ⟨3, 4⟩⟩

end MultiView
