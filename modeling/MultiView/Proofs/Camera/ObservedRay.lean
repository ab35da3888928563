import MultiView.Proofs.Camera.BackProjection
import MultiView.Proofs.Geometry.Rotation
import MultiView.Proofs.Problem.Evaluation

/-!
# Points on observed rays

A camera with moderate distortion back-projects a pixel near the principal point to a point that it projects to that
pixel again, up to the tolerance of the iteration (`Lens.project_unproject`): in a disc around the distorted point the
iteration settles (`Distortion.Moderate.settles`), although no undistorted point is known beforehand. So a point of the
world on the ray of the pixel, at any depth and from any pose, has a residual as small as that
(`Camera.evaluate_rayPoint`).
-/

namespace MultiView

/-! ## Undoing distortion from a distorted point -/

namespace Distortion

/-- The disc that the iteration towards a distorted point near the axis does not leave. -/
def Disc (q : Vec2 ℝ) : Prop := q.x ^ 2 + q.y ^ 2 ≤ (11 / 20) ^ 2

theorem Disc.abs_le {q : Vec2 ℝ} (h : Disc q) : |q.x| ≤ 11 / 20 ∧ |q.y| ≤ 11 / 20 := by
  unfold Disc at h
  exact ⟨abs_le_of_sq_le_sq (by linarith [sq_nonneg q.y]) (by norm_num),
    abs_le_of_sq_le_sq (by linarith [sq_nonneg q.x]) (by norm_num)⟩

theorem Moderate.settles {d : Distortion ℝ} (h : d.Moderate) {target : Vec2 ℝ}
    (htarget : target.x ^ 2 + target.y ^ 2 ≤ 1 / 5) : Undistort.Settles d.offset target Disc (1 / 2) where
  factor_nonneg := by norm_num
  stays q hq := by
    have hoffset := h.abs_offset_le hq.abs_le.1 hq.abs_le.2
    have hbound : (11 / 20 : ℝ) ^ 3 / 5 + (11 / 20) ^ 5 / 5 + 3 * (11 / 20) ^ 2 / 50 ≤ 1 / 16 := by norm_num
    have hx := sq_le_sq' (abs_le.1 (hoffset.1.trans hbound)).1 (abs_le.1 (hoffset.1.trans hbound)).2
    have hy := sq_le_sq' (abs_le.1 (hoffset.2.trans hbound)).1 (abs_le.1 (hoffset.2.trans hbound)).2
    change (target - d.offset q).x ^ 2 + (target - d.offset q).y ^ 2 ≤ (11 / 20) ^ 2
    rw [Vec2.sub_x, Vec2.sub_y]
    -- `(t - o)² ≤ 6/5 t² + 6 o²`
    linarith [sq_nonneg (target.x + 5 * (d.offset q).x), sq_nonneg (target.y + 5 * (d.offset q).y)]
  shrinks p q hp hq := by
    refine (h.taxicab_offset_sub_le hp.abs_le.1 hp.abs_le.2 hq.abs_le.1 hq.abs_le.2).trans ?_
    exact mul_le_mul_of_nonneg_right (by norm_num) (Vec2.taxicab_nonneg _)

/-- Undoing a moderate distortion gives a point that is distorted to the given one, up to the tolerance. -/
theorem Moderate.undistort_miss {d : Distortion ℝ} (h : d.Moderate) (target : Vec2 ℝ)
    (htarget : target.x ^ 2 + target.y ^ 2 ≤ 1 / 5) :
    (undistort d.offset target + d.offset (undistort d.offset target) - target).taxicab ≤ 1 / 10 ^ 10 := by
  have hdisc : Disc target := htarget.trans (by norm_num)
  have hfirst : (d.offset target).taxicab ≤ 1 / 8 :=
    (h.taxicab_offset_le hdisc.abs_le.1 hdisc.abs_le.2).trans (by norm_num)
  refine ((h.settles htarget).undistort_miss hdisc).trans (max_le ?_ ?_)
  · rw [Undistort.tolerance_eq]
    norm_num
  · calc (1 / 2 : ℝ) ^ Undistort.maxPasses * (d.offset target).taxicab
        ≤ (1 / 2) ^ Undistort.maxPasses * (1 / 8) := by gcongr
      _ ≤ 1 / 10 ^ 10 := by norm_num [Undistort.maxPasses]

end Distortion

/-! ## Pixels and rays -/

/-- A lens with moderate distortion projects what it back-projects to the pixel, up to the tolerance. -/
theorem Lens.project_unproject {l : Lens ℝ} (hx : 0 < l.fx) (hy : 0 < l.fy) (hmoderate : l.distortion.Moderate)
    {pixel : Vec2 ℝ} (hnear : ((pixel.x - l.cx) / l.fx) ^ 2 + ((pixel.y - l.cy) / l.fy) ^ 2 ≤ 1 / 5) :
    |(l.project (l.unproject pixel) - pixel).x| + |(l.project (l.unproject pixel) - pixel).y| ≤
      max l.fx l.fy * (1 / 10 ^ 10) := by
  have hmiss := hmoderate.undistort_miss ⟨(pixel.x - l.cx) / l.fx, (pixel.y - l.cy) / l.fy⟩ hnear
  rw [← unproject] at hmiss
  set n := l.unproject pixel
  set miss := n + l.distortion.offset n - ⟨(pixel.x - l.cx) / l.fx, (pixel.y - l.cy) / l.fy⟩
  have hmissx : (l.project n - pixel).x = l.fx * miss.x := by
    simp only [miss, project, Vec2.sub_x, Vec2.add_x]
    field_simp
    ring
  have hmissy : (l.project n - pixel).y = l.fy * miss.y := by
    simp only [miss, project, Vec2.sub_y, Vec2.add_y]
    field_simp
    ring
  calc |(l.project n - pixel).x| + |(l.project n - pixel).y| = l.fx * |miss.x| + l.fy * |miss.y| := by
        rw [hmissx, hmissy, abs_mul, abs_mul, abs_of_pos hx, abs_of_pos hy]
    _ ≤ max l.fx l.fy * |miss.x| + max l.fx l.fy * |miss.y| := by
        gcongr
        · exact le_max_left _ _
        · exact le_max_right _ _
    _ = max l.fx l.fy * miss.taxicab := by rw [Vec2.taxicab_eq, mul_add]
    _ ≤ max l.fx l.fy * (1 / 10 ^ 10) := by gcongr

/-- An inverse pose takes a point to where the pose takes it back from. -/
theorem Pose.apply_inverse_apply {p : Pose ℝ} (h : p.rot.norm = 1) (v : Vec3 ℝ) :
    p.apply (p.inverse.apply v) = v := by
  rw [apply, inverse, apply, Quat.rotate_add, Quat.rotate_rotate_conj h, Quat.rotate_rotate_conj h]
  ext
  · exact neg_add_cancel_right v.x p.trans.x
  · exact neg_add_cancel_right v.y p.trans.y
  · exact neg_add_cancel_right v.z p.trans.z

/-- A point at a depth on the ray of an image point is seen there. -/
theorem Vec2.perspective_homogeneous_scale {depth : ℝ} (h : depth ≠ 0) (n : Vec2 ℝ) :
    (n.homogeneous.scale depth).perspective = n := by
  rw [Vec3.perspective_scale h]
  ext
  · exact div_one n.x
  · exact div_one n.y

/-! ## Residuals -/

namespace Camera

/-- The point of the world at a depth on the ray of a pixel. -/
noncomputable def rayPoint (c : Camera ℝ) (pixel : Vec2 ℝ) (pose : Pose ℝ) (depth : ℝ) : Vec3 ℝ :=
  pose.inverse.apply ((c.unproject pixel).homogeneous.scale depth)

/-- A point on the ray of an observed pixel has a residual of at most the tolerance times the focal length, whether the
pose is variable or known. -/
theorem evaluate_rayPoint {c : Camera ℝ} (hc : c.Valid) (hmoderate : (c.model.lens c.params).distortion.Moderate)
    {pixel : Vec2 ℝ}
    (hnear : ((pixel.x - (c.model.lens c.params).cx) / (c.model.lens c.params).fx) ^ 2 +
      ((pixel.y - (c.model.lens c.params).cy) / (c.model.lens c.params).fy) ^ 2 ≤ 1 / 5)
    {pose : Pose ℝ} (hpose : pose.rot.norm = 1) {depth : ℝ} (hdepth : 0 < depth) :
    ∃ r0 r1 : ℝ,
      (Factor.reprojection c.model pixel).evaluate
          [pose.rot.toList, pose.trans.toList, (c.rayPoint pixel pose depth).toList, c.params] = .ok [r0, r1] ∧
        (Factor.fixedPose c.model pose pixel).evaluate [(c.rayPoint pixel pose depth).toList, c.params] =
          .ok [r0, r1] ∧
        |r0| + |r1| ≤ max (c.model.lens c.params).fx (c.model.lens c.params).fy * (1 / 10 ^ 10) := by
  set l := c.model.lens c.params with hl
  obtain ⟨hx, hy⟩ := hc.focal_pos
  have hseen : (pose.apply (c.rayPoint pixel pose depth)).perspective = l.unproject pixel := by
    rw [rayPoint, Pose.apply_inverse_apply hpose, Vec2.perspective_homogeneous_scale hdepth.ne']
    rfl
  have herror : Factor.reprojectionError l (pose.apply (c.rayPoint pixel pose depth)) pixel =
      l.project (l.unproject pixel) - pixel := by
    rw [Factor.reprojectionError, hseen]
  refine ⟨_, _, Factor.evaluate_eq_ok.2 ⟨?_, ?_⟩, Factor.evaluate_eq_ok.2 ⟨?_, ?_⟩,
    Lens.project_unproject hx hy hmoderate hnear⟩
  · rw [List.map_cons, List.map_cons, List.map_cons, List.map_singleton, hc.count]
    rfl
  · rw [← Vec2.toList, ← herror]
    rfl
  · rw [List.map_cons, List.map_singleton, hc.count]
    rfl
  · rw [← Vec2.toList, ← herror]
    rfl

/-- A camera that is turned about its axis. -/
noncomputable def turned : Pose ℝ := ⟨⟨0, 0, Scalar.decimal 6 1, Scalar.decimal 8 1⟩, ⟨1, -1, 1⟩⟩

theorem norm_turned : turned.rot.norm = 1 := by
  rw [Quat.norm_eq_one]
  norm_num [Quat.normSq, turned, Scalar.decimal]

/-- A pixel off the principal point of a camera with all coefficients as large as is moderate. -/
theorem evaluate_rayPoint_bent :
    ∃ r0 r1 : ℝ,
      (Factor.reprojection .opencv ⟨500, 300⟩).evaluate
          [turned.rot.toList, turned.trans.toList, (bent.rayPoint ⟨500, 300⟩ turned 2).toList, bent.params] =
            .ok [r0, r1] ∧
        (Factor.fixedPose .opencv turned ⟨500, 300⟩).evaluate
          [(bent.rayPoint ⟨500, 300⟩ turned 2).toList, bent.params] = .ok [r0, r1] ∧
        |r0| + |r1| ≤ max 900 880 * (1 / 10 ^ 10) := by
  have hnear : ((500 - (bent.model.lens bent.params).cx) / (bent.model.lens bent.params).fx) ^ 2 +
      ((300 - (bent.model.lens bent.params).cy) / (bent.model.lens bent.params).fy) ^ 2 ≤ 1 / 5 := by
    norm_num [bent, CameraModel.lens]
  exact evaluate_rayPoint valid_bent moderate_bent hnear norm_turned two_pos

end Camera

end MultiView
