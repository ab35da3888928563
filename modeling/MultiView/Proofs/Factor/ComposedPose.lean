import Mathlib
import MultiView.Proofs.Geometry.RotationMatrix
import MultiView.Proofs.Problem.Evaluation

/-!
# A rig shows its composed pose only

In exact arithmetic one rigid motion after another is the composed motion. So a camera on a rig sees what the rig's pose
and then its own take to its frame (`Factor.evaluate_rig`): it has the residual of a single camera at the composed pose,
and a change of the rig's frame does not show in it (`Factor.evaluate_rig_composed`).
-/

namespace MultiView

/-- The blocks of a pose, in the order in which factors read them. -/
def Pose.blocks {α : Type} (p : Pose α) : List (List α) := [p.rot.toList, p.trans.toList]

namespace Factor

variable {model : CameraModel} {intrinsics : List ℝ}

theorem evaluate_reprojection (uv : Vec2 ℝ) (pose : Pose ℝ) (p : Vec3 ℝ) (h : intrinsics.length = model.numParams) :
    (reprojection model uv).evaluate (pose.blocks ++ [p.toList, intrinsics]) =
      .ok (reprojectionError (model.lens intrinsics) (pose.apply p) uv).toList :=
  evaluate_eq_ok.2 ⟨by simp [blockSizes, Pose.blocks, Quat.toList, Vec3.toList, h], rfl⟩

/-- A camera on a rig sees what the rig's pose and then its own take to its frame. -/
theorem evaluate_rig (uv : Vec2 ℝ) {rigPose relPose : Pose ℝ} (hrig : rigPose.rot.norm = 1)
    (hrel : relPose.rot.norm = 1) (p : Vec3 ℝ) (h : intrinsics.length = model.numParams) :
    (rig model uv).evaluate (rigPose.blocks ++ relPose.blocks ++ [p.toList, intrinsics]) =
      .ok (reprojectionError (model.lens intrinsics) (relPose.apply (rigPose.apply p)) uv).toList := by
  rw [← Pose.comp_apply hrel hrig]
  exact evaluate_eq_ok.2 ⟨by simp [blockSizes, Pose.blocks, Quat.toList, Vec3.toList, h], rfl⟩

/-- A camera on a rig measures what a single camera does at the composed pose, or at its own pose with the point in the
rig's frame, and no change of that frame shows. Composition is associative on rotations of unit length, and the identity
is its unit. -/
theorem evaluate_rig_composed (model : CameraModel) (uv : Vec2 ℝ) {intrinsics : List ℝ}
    (hintrinsics : intrinsics.length = model.numParams) (p : Vec3 ℝ) {rigPose relPose : Pose ℝ}
    (hrig : rigPose.rot.norm = 1) (hrel : relPose.rot.norm = 1) :
    (∃ r, (rig model uv).evaluate (rigPose.blocks ++ relPose.blocks ++ [p.toList, intrinsics]) = .ok r ∧
      (reprojection model uv).evaluate ((relPose.comp rigPose).blocks ++ [p.toList, intrinsics]) = .ok r ∧
      (reprojection model uv).evaluate (relPose.blocks ++ [(rigPose.apply p).toList, intrinsics]) = .ok r ∧
      ∀ g : Pose ℝ, g.rot.norm = 1 → (rig model uv).evaluate
        ((g.comp rigPose).blocks ++ (relPose.comp g.inverse).blocks ++ [p.toList, intrinsics]) = .ok r) ∧
    (∀ a b c : Pose ℝ, a.rot.norm = 1 → b.rot.norm = 1 → (a.comp b).comp c = a.comp (b.comp c)) ∧
    ∀ a : Pose ℝ, Pose.one.comp a = a ∧ a.comp Pose.one = a := by
  refine ⟨⟨_, evaluate_rig uv hrig hrel p hintrinsics, ?_, ?_, fun g hg => ?_⟩,
    fun a b c ha hb => Pose.comp_assoc ha hb c, fun a => ⟨Pose.one_comp a, Pose.comp_one a⟩⟩
  · rw [evaluate_reprojection uv _ p hintrinsics, Pose.comp_apply hrel hrig]
  · rw [evaluate_reprojection uv _ _ hintrinsics]
  · have hback : g.inverse.rot.norm = 1 := Quat.norm_conj hg
    rw [evaluate_rig uv (Quat.norm_mul hg hrig) (Quat.norm_mul hrel hback) p hintrinsics, Pose.comp_apply hg hrig,
      Pose.comp_apply hrel hback, Pose.inverse_apply_apply hg]

/-- A rig that is turned about the third axis. -/
noncomputable def turnedRig : Pose ℝ := ⟨Quat.turned, Vec3.yAxis⟩

/-- A camera that looks the other way. -/
def lookingBack : Pose ℝ := ⟨⟨1, 0, 0, 0⟩, ⟨1, 0, -1⟩⟩

theorem norm_lookingBack : lookingBack.rot.norm = 1 := by
  rw [Quat.norm_eq_one]
  norm_num [lookingBack, Quat.normSq]

/-- Intrinsics with distortion. -/
def bentIntrinsics : List ℝ := [1, 0, 0, -1, 1]

theorem evaluate_rig_composed_lookingBack :
    bentIntrinsics.length = CameraModel.radial.numParams ∧ turnedRig.rot.norm = 1 ∧ lookingBack.rot.norm = 1 ∧
    ∃ r, (rig .radial ⟨0, 1⟩).evaluate
        (turnedRig.blocks ++ lookingBack.blocks ++ [Vec3.xAxis.toList, bentIntrinsics]) = .ok r ∧
      (reprojection .radial ⟨0, 1⟩).evaluate
        ((lookingBack.comp turnedRig).blocks ++ [Vec3.xAxis.toList, bentIntrinsics]) = .ok r ∧
      (rig .radial ⟨0, 1⟩).evaluate ((lookingBack.comp turnedRig).blocks ++
        (lookingBack.comp lookingBack.inverse).blocks ++ [Vec3.xAxis.toList, bentIntrinsics]) = .ok r := by
  have hintrinsics : bentIntrinsics.length = CameraModel.radial.numParams := rfl
  have hnorm : turnedRig.rot.norm = 1 := Quat.norm_turned
  obtain ⟨⟨r, hrig, hcomposed, -, hslid⟩, -, -⟩ :=
    evaluate_rig_composed .radial ⟨0, 1⟩ hintrinsics Vec3.xAxis hnorm norm_lookingBack
  exact ⟨hintrinsics, hnorm, norm_lookingBack, r, hrig, hcomposed, hslid lookingBack norm_lookingBack⟩

end Factor

end MultiView
