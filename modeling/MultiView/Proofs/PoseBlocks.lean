import Mathlib
import MultiView.Proofs.Geometry.RotationMatrix

/-!
# Decoding the blocks of poses

A pose is decoded by checking both blocks and then reading them, a rotation alone by a decoder of its own. The pose's
rotation is what that decoder gives (`Pose.ofBlocks_eq`), so they accept the same blocks and refuse them for the same
reason. In exact arithmetic the accepted rotation blocks are the nonzero quaternions, and what is decoded depends on
their direction only (`Quat.ofBlock_eq_ok`, `Quat.ofBlock_scale`): decoding undoes encoding for unit rotations, and
blocks that were decoded and encoded do not change any more (`Pose.ofBlocks_consistent`).
-/

namespace MultiView

/-- A pose is decoded as its rotation is, and keeps its vector block. -/
theorem Pose.ofBlocks_eq {α : Type} [Scalar α] {rotation trans : List α} (h : trans.length = 3) :
    Pose.ofBlocks rotation trans = (fun q => ⟨q, Vec3.ofList trans⟩) <$> Quat.ofBlock rotation := by
  rw [ofBlocks, Quat.ofBlock, h]
  by_cases hlength : rotation.length = 4
  · by_cases hdirection : (Quat.ofList rotation).isDirection = true
    · simp [require, hlength, hdirection, normalize]
    · simp [require, hlength, hdirection]
  · simp [require, hlength]

namespace Quat

variable {q : Quat ℝ}

theorem isDirection_iff_ne_zero : q.IsDirection ↔ q ≠ zero := by
  refine ⟨?_, fun h => ⟨norm_pos h, fun _ _ => rfl⟩⟩
  rintro h rfl
  have hnormSq : zero.normSq = 0 := by simp [normSq, zero]
  have hnorm : zero.norm = 0 := (congrArg Real.sqrt hnormSq).trans Real.sqrt_zero
  exact h.norm.ne' hnorm

/-- The blocks that a rotation is read from are those of nonzero quaternions. -/
theorem ofBlock_eq_ok {block : List ℝ} {r : Quat ℝ} :
    ofBlock block = .ok r ↔ ∃ q ≠ zero, block = q.toList ∧ r = q.normalize := by
  simp only [ofBlock, bind_eq_ok, exists_unit, require_eq_ok, pure_eq_ok, isDirection_iff, isDirection_iff_ne_zero]
  constructor
  · rintro ⟨hlength, hq, rfl⟩
    obtain ⟨q, rfl⟩ := exists_toList hlength
    exact ⟨q, hq, rfl, rfl⟩
  · rintro ⟨q, hq, rfl, rfl⟩
    exact ⟨rfl, hq, rfl⟩

/-- A block that is made longer or shorter is read as before. -/
theorem ofBlock_scale {block : List ℝ} {r : Quat ℝ} (h : ofBlock block = .ok r) {s : ℝ} (hs : 0 < s) :
    ofBlock (block.map (· * s)) = .ok r := by
  obtain ⟨q, hq, rfl, rfl⟩ := ofBlock_eq_ok.1 h
  refine ofBlock_eq_ok.2 ⟨q.scale s, ?_, rfl, (normalize_scale q hs).symm⟩
  rw [← isDirection_iff_ne_zero] at hq ⊢
  refine ⟨?_, fun _ _ => rfl⟩
  rw [norm_scale]
  exact mul_pos hq.norm (abs_pos.2 hs.ne')

/-- A unit quaternion is read from its block as it is. -/
theorem ofBlock_toList (h : q.norm = 1) : ofBlock q.toList = .ok q :=
  ofBlock_eq_ok.2 ⟨q, ne_zero_of_norm h, rfl, (normalize_of_norm h).symm⟩

end Quat

namespace Pose

/-- A pose with a unit rotation is decoded from its own blocks. -/
theorem ofBlocks_toBlocks {p : Pose ℝ} (h : p.rot.norm = 1) : ofBlocks p.toBlocks.1 p.toBlocks.2 = .ok p := by
  rw [ofBlocks_eq rfl, toBlocks, Quat.ofBlock_toList h]
  rfl

/-- The two decoders accept the same rotation blocks and refuse them with the same text. What they accept they scale to
unit length, whatever its length is, so blocks that come from decoding are decoded to what they came from, and so are
the blocks of a pose with a unit rotation. -/
theorem ofBlocks_consistent {rotation trans : List ℝ} (h : trans.length = 3) :
    ((∃ p, ofBlocks rotation trans = .ok p) ↔ ∃ r, Quat.ofBlock rotation = .ok r) ∧
    (∀ [NumberText ℝ] (text : String), (∃ e, ofBlocks rotation trans = .error e ∧ e.message = text) ↔
      ∃ e, Quat.ofBlock rotation = .error e ∧ e.message = text) ∧
    (∀ p, ofBlocks rotation trans = .ok p → ∃ q : Quat ℝ, rotation = q.toList ∧
      Quat.ofBlock rotation = .ok p.rot ∧ p.rot = q.scale q.norm⁻¹ ∧ p.rot.norm = 1 ∧
      p.toBlocks = ((q.scale q.norm⁻¹).toList, trans) ∧
      (∀ s > 0, ofBlocks (rotation.map (· * s)) trans = .ok p ∧
        Quat.ofBlock (rotation.map (· * s)) = .ok p.rot) ∧
      ofBlocks p.toBlocks.1 p.toBlocks.2 = .ok p) ∧
    ∀ p : Pose ℝ, p.rot.norm = 1 → ofBlocks p.toBlocks.1 p.toBlocks.2 = .ok p := by
  have hdecode : ∀ rotation, ofBlocks rotation trans = _ := fun rotation => ofBlocks_eq h
  refine ⟨?_, fun text => ?_, fun p hp => ?_, fun p => ofBlocks_toBlocks⟩
  · rw [hdecode]
    cases Quat.ofBlock rotation <;> simp
  · rw [hdecode]
    cases Quat.ofBlock rotation <;> simp
  · rw [hdecode, map_eq_ok] at hp
    obtain ⟨r, hr, rfl⟩ := hp
    obtain ⟨t, rfl⟩ := Vec3.exists_toList h
    obtain ⟨q, hq, rfl, rfl⟩ := Quat.ofBlock_eq_ok.1 hr
    have hnorm := Quat.norm_normalize hq
    refine ⟨q, rfl, hr, q.normalize_eq_scale, hnorm, ?_, fun s hs => ?_, ofBlocks_toBlocks hnorm⟩
    · rw [toBlocks, ← Quat.normalize_eq_scale, Vec3.ofList_toList]
    · have hscaled := Quat.ofBlock_scale hr hs
      exact ⟨by rw [hdecode, hscaled]; rfl, hscaled⟩

/-- A rotation block five times as long as a unit quaternion. -/
theorem ofBlocks_consistent_long : ([1, 2, 3] : List ℝ).length = 3 ∧
    ∃ p : Pose ℝ, ofBlocks [0, 0, 3, 4] [1, 2, 3] = .ok p ∧ Quat.ofBlock [0, 0, 3, 4] = .ok p.rot ∧ p.rot.norm = 1 ∧
      p.toBlocks.2 = [1, 2, 3] ∧ ofBlocks p.toBlocks.1 p.toBlocks.2 = .ok p := by
  obtain ⟨haccepts, -, hdecodes, -⟩ := @ofBlocks_consistent [0, 0, 3, 4] [1, 2, 3] rfl
  have hne : (⟨0, 0, 3, 4⟩ : Quat ℝ) ≠ Quat.zero := fun h => four_ne_zero (congrArg Quat.w h)
  obtain ⟨p, hp⟩ := haccepts.2 ⟨_, Quat.ofBlock_eq_ok.2 ⟨⟨0, 0, 3, 4⟩, hne, rfl, rfl⟩⟩
  obtain ⟨q, -, hrotation, -, hnorm, hblocks, -, hagain⟩ := hdecodes p hp
  exact ⟨rfl, p, hp, hrotation, hnorm, congrArg Prod.snd hblocks, hagain⟩

end Pose

end MultiView
