import Mathlib
import MultiView.Proofs.Geometry.LookAt
import MultiView.Synthetic.Scene

/-!
# Cameras on an arc

The cameras of an arc stand around the target at the height of the target and at the distance of the radius
(`Scene.norm_sub_arcEye`), so each of them looks at it: the target is on the axis of every camera, at that distance
(`Scene.posesOnArc_looksAt`).
-/

namespace MultiView

namespace Scene

variable {n i : ℕ} {radius arc : ℝ} {target : Vec3 ℝ}

/-- The angles divide the arc evenly. -/
theorem arcAngle_eq (n : ℕ) (arc : ℝ) (i : ℕ) :
    arcAngle n arc i = arc * if 1 < n then (i : ℝ) / (n - 1) - 1 / 2 else 0 := by
  rw [arcAngle, mul_comm]
  by_cases hn : 1 < n
  · have hcast : ((n - 1 : ℕ) : ℝ) = n - 1 := by rw [Nat.cast_sub hn.le, Nat.cast_one]
    rw [if_pos hn, if_pos hn, ← hcast]
    rw [Scalar.ofNat_eq, Scalar.ofNat_eq, Scalar.half_eq]
  · rw [if_neg hn, if_neg hn]

/-- The way from a camera to the target. -/
theorem sub_arcEye : target - arcEye n radius arc target i =
    ⟨-(Real.sin (arcAngle n arc i) * radius), 0, Real.cos (arcAngle n arc i) * radius⟩ := by
  ext <;> simp [arcEye, Vec3.scale] <;> exact .inl rfl

theorem normSq_sub_arcEye : (target - arcEye n radius arc target i).normSq = radius ^ 2 := by
  rw [sub_arcEye, Vec3.normSq]
  linear_combination radius ^ 2 * Real.sin_sq_add_cos_sq (arcAngle n arc i)

theorem norm_sub_arcEye : (target - arcEye n radius arc target i).norm = |radius| :=
  calc (target - arcEye n radius arc target i).norm = √(radius ^ 2) := congrArg Real.sqrt normSq_sub_arcEye
    _ = |radius| := Real.sqrt_sq_eq_abs radius

/-- The cameras look along the horizon. -/
theorem cross_sub_arcEye (hradius : radius ≠ 0) :
    Vec3.yAxis.cross (target - arcEye n radius arc target i) ≠ Vec3.zero := by
  have hlevel : Vec3.yAxis.dot (target - arcEye n radius arc target i) = 0 := by
    rw [sub_arcEye]
    simp [Vec3.dot, Vec3.yAxis]
  have hnormSq := Vec3.normSq_cross Vec3.yAxis (target - arcEye n radius arc target i)
  rw [normSq_sub_arcEye, hlevel] at hnormSq
  intro h
  rw [h] at hnormSq
  simp [Vec3.normSq, Vec3.zero, Vec3.yAxis] at hnormSq
  exact pow_ne_zero 2 hradius hnormSq.symm

/-- An arc around a target has as many cameras as it was asked for, at angles that divide it evenly. Each is level, at
the origin of its own frame, and has the target on its axis at the distance of the radius, on whichever side of the
target the radius puts it. So does any camera that looks at a point that is not straight above or below it. -/
theorem posesOnArc_looksAt :
    (∀ (n : ℕ) (radius arc : ℝ) (target : Vec3 ℝ), radius ≠ 0 → (posesOnArc n radius arc target).length = n ∧
      ∀ i < n, ∃ pose a, (posesOnArc n radius arc target)[i]? = some pose ∧
        a = arc * (if 1 < n then (i : ℝ) / (n - 1) - 1 / 2 else 0) ∧
        pose.LooksAt (target + Vec3.scale ⟨Real.sin a, 0, -Real.cos a⟩ radius) target ∧
        pose.apply target = ⟨0, 0, |radius|⟩) ∧
    ∀ eye target : Vec3 ℝ, Vec3.yAxis.cross (target - eye) ≠ Vec3.zero →
      (Pose.lookAt eye target).LooksAt eye target := by
  refine ⟨fun n radius arc target hradius => ⟨?_, fun i hi => ?_⟩, fun eye target => Pose.looksAt_lookAt⟩
  · rw [posesOnArc, List.length_map, List.length_range]
  · have hlooks : (Pose.lookAt (arcEye n radius arc target i) target).LooksAt (arcEye n radius arc target i) target :=
      Pose.looksAt_lookAt (cross_sub_arcEye hradius)
    refine ⟨_, arcAngle n arc i, ?_, arcAngle_eq n arc i, hlooks, hlooks.apply_target.trans ?_⟩
    · rw [posesOnArc, List.getElem?_map, List.getElem?_range hi, Option.map_some]
    · rw [norm_sub_arcEye]

/-- Three cameras on an arc of negative radius, which is in front of the target, and a camera that looks to the side. -/
theorem posesOnArc_looksAt_front :
    (∃ pose, (posesOnArc 3 (-2 : ℝ) 1 ⟨1, 2, 3⟩)[1]? = some pose ∧ pose.rot.norm = 1 ∧
      pose.apply ⟨1, 2, 3⟩ = ⟨0, 0, 2⟩ ∧ pose.apply ⟨1, 2, 5⟩ = Vec3.zero) ∧
    (Pose.lookAt Vec3.zero (Vec3.xAxis : Vec3 ℝ)).LooksAt Vec3.zero Vec3.xAxis := by
  obtain ⟨harc, hlookAt⟩ := posesOnArc_looksAt
  constructor
  · obtain ⟨-, hposes⟩ := harc 3 (-2) 1 ⟨1, 2, 3⟩ (by norm_num)
    obtain ⟨pose, a, hpose, ha, hlooks, htarget⟩ := hposes 1 (by norm_num)
    have hangle : a = 0 := by
      rw [ha]
      norm_num
    have heye : (⟨1, 2, 3⟩ : Vec3 ℝ) + Vec3.scale ⟨Real.sin a, 0, -Real.cos a⟩ (-2) = ⟨1, 2, 5⟩ := by
      rw [hangle, Real.sin_zero, Real.cos_zero]
      ext <;> norm_num [Vec3.scale]
    refine ⟨pose, hpose, hlooks.norm, ?_, heye ▸ hlooks.apply_eye⟩
    rw [htarget, abs_neg, abs_two]
  · refine hlookAt Vec3.zero Vec3.xAxis fun h => ?_
    have hz := congrArg Vec3.z h
    simp [Vec3.cross, Vec3.yAxis, Vec3.xAxis, Vec3.zero] at hz

end Scene

end MultiView
