import MultiView.Proofs.Geometry.Rotation

/-!
# Similarities

A similarity scales, rotates and moves the world. A pose is carried along (`Similarity.carry`) so that it maps the moved
points to where it mapped the points before, up to the scale (`Similarity.carry_apply`), and a camera on a rig, whose
distance from the rig is scaled, does so too (`Similarity.comp_carry_apply`). A camera does not see the scale
(`Vec3.perspective_scale`).
-/

namespace MultiView

/-- A motion `p ↦ scale * rot · p + trans`. -/
structure Similarity where
  scale : ℝ
  rot : Quat ℝ
  trans : Vec3 ℝ
  scale_ne_zero : scale ≠ 0
  norm_rot : rot.norm = 1

namespace Similarity

variable (g : Similarity)

/-- The image of a point. -/
noncomputable def apply (v : Vec3 ℝ) : Vec3 ℝ := (g.rot.rotate v).scale g.scale + g.trans

/-- The rotation of a pose, of the moved world. -/
noncomputable def carryRot (q : Quat ℝ) : Quat ℝ := q.mul g.rot.conj

/-- A pose of the moved world, up to the scale. -/
noncomputable def carry (p : Pose ℝ) : Pose ℝ :=
  ⟨g.carryRot p.rot, p.trans.scale g.scale - (g.carryRot p.rot).rotate g.trans⟩

/-- A camera's pose on a rig of the moved world, up to the scale. -/
noncomputable def stretch (p : Pose ℝ) : Pose ℝ := ⟨p.rot, p.trans.scale g.scale⟩

variable {g} {p rel rig : Pose ℝ}

theorem norm_carryRot {q : Quat ℝ} (h : q.norm = 1) : (g.carryRot q).norm = 1 :=
  Quat.norm_mul h (Quat.norm_conj g.norm_rot)

/-- A carried rotation takes a rotated vector to where the rotation took the vector. -/
theorem carryRot_rotate {q : Quat ℝ} (h : q.norm = 1) (v : Vec3 ℝ) :
    (g.carryRot q).rotate (g.rot.rotate v) = q.rotate v := by
  rw [carryRot, Quat.rotate_mul h (Quat.norm_conj g.norm_rot), Quat.rotate_conj_rotate g.norm_rot]

theorem carry_apply (h : p.rot.norm = 1) (v : Vec3 ℝ) : (g.carry p).apply (g.apply v) = (p.apply v).scale g.scale := by
  rw [apply, carry, Pose.apply, Pose.apply, Quat.rotate_add, Quat.rotate_scale, carryRot_rotate h, Vec3.scale_add]
  ext <;> simp

theorem stretch_apply (v : Vec3 ℝ) : (g.stretch p).apply (v.scale g.scale) = (p.apply v).scale g.scale := by
  rw [stretch, Pose.apply, Pose.apply, Quat.rotate_scale, Vec3.scale_add]

theorem comp_carry_apply (hrel : rel.rot.norm = 1) (hrig : rig.rot.norm = 1) (v : Vec3 ℝ) :
    ((g.stretch rel).comp (g.carry rig)).apply (g.apply v) = ((rel.comp rig).apply v).scale g.scale := by
  have hstretch : (g.stretch rel).rot.norm = 1 := hrel
  have hcarry : (g.carry rig).rot.norm = 1 := norm_carryRot hrig
  calc ((g.stretch rel).comp (g.carry rig)).apply (g.apply v)
      = (g.stretch rel).apply ((g.carry rig).apply (g.apply v)) := Pose.comp_apply hstretch hcarry _
    _ = (rel.apply (rig.apply v)).scale g.scale := by rw [carry_apply hrig, stretch_apply]
    _ = ((rel.comp rig).apply v).scale g.scale := by rw [Pose.comp_apply hrel hrig]

end Similarity

end MultiView
