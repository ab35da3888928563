import MultiView.Proofs.Synthetic.Noise
import MultiView.Synthetic.Scene

/-!
# Ranges of synthetic data

Samples are multiples of `2 ^ -53` below one, noise moves a pixel by no more than its bound, and points of a box are in
the box, whatever the seed and the indices (`samples_inRange`). A point of a box does not depend on how many points are
asked for, so the points for a number begin the points for a larger one (`Scene.pointsInBox_prefix`).
-/

namespace MultiView

/-- The sample of a key is the number of the upper bits of the hash, in steps of `2 ^ -53`. -/
theorem SampleKey.exists_sample_eq (key : UInt64) :
    ∃ m < 2 ^ 53, m = (hash key).toNat / 2 ^ 11 ∧ (sample key : ℝ) = m / 2 ^ 53 := by
  refine ⟨numerator key, numerator_lt key, ?_, sample_eq key⟩
  rw [numerator, UInt64.toNat_shiftRight, Nat.shiftRight_eq_div_pow]
  rfl

theorem PixelNoise.abs_apply_sub_le (noise : PixelNoise ℝ) (image point : ℕ) (uv : Vec2 ℝ) :
    |(noise.apply image point uv).x - uv.x| ≤ |noise.maxAbs| ∧
      |(noise.apply image point uv).y - uv.y| ≤ |noise.maxAbs| := by
  rw [apply, Vec2.add_x, Vec2.add_y, add_sub_cancel_left, add_sub_cancel_left]
  exact noise.abs_sample_le image point

namespace Scene

/-! ## Points of a box -/

/-- Is a point in the box between two corners? -/
structure InBox (low high p : Vec3 ℝ) : Prop where
  x : p.x ∈ Set.Icc low.x high.x
  y : p.y ∈ Set.Icc low.y high.y
  z : p.z ∈ Set.Icc low.z high.z

theorem boxCoordinate_mem {low high : ℝ} (h : low ≤ high) (seed : UInt64) (i axis : ℕ) :
    boxCoordinate seed low high i axis ∈ Set.Icc low high := by
  obtain ⟨hzero, hone⟩ := SampleKey.sample_mem (SampleKey.mix seed i axis)
  have hpart := mul_le_of_le_one_left (sub_nonneg.2 h) hone.le
  have hnonneg := mul_nonneg hzero (sub_nonneg.2 h)
  rw [boxCoordinate]
  exact ⟨by linarith, by linarith⟩

theorem inBox_of_mem {n : ℕ} {low high p : Vec3 ℝ} {seed : UInt64} (hx : low.x ≤ high.x) (hy : low.y ≤ high.y)
    (hz : low.z ≤ high.z) (hp : p ∈ pointsInBox n low high seed) : InBox low high p := by
  obtain ⟨i, -, rfl⟩ := List.mem_map.1 hp
  exact ⟨boxCoordinate_mem hx seed i 0, boxCoordinate_mem hy seed i 1, boxCoordinate_mem hz seed i 2⟩

section Prefix

variable {α : Type} [Scalar α] (low high : Vec3 α) (seed : UInt64)

theorem length_pointsInBox (n : ℕ) : (pointsInBox n low high seed).length = n := by
  rw [pointsInBox, List.length_map, List.length_range]

theorem pointsInBox_prefix {n m : ℕ} (h : n ≤ m) : pointsInBox n low high seed <+: pointsInBox m low high seed := by
  have hrange : List.range n = (List.range m).take n := by rw [List.take_range, min_eq_left h]
  rw [pointsInBox, hrange]
  exact (List.take_prefix n _).map _

end Prefix

end Scene

/-! ## All of them -/

/-- Every key gives a sample below one in steps of `2 ^ -53`. Noise is in the half-open interval of its bound, whatever
the sign of the bound, and moves no pixel farther. There are as many points in a box as are asked for, all of them in
the box, and asking for more only adds to them. -/
theorem samples_inRange :
    (∀ key : UInt64, ∃ m < 2 ^ 53, m = (SampleKey.hash key).toNat / 2 ^ 11 ∧
      (SampleKey.sample key : ℝ) = m / 2 ^ 53) ∧
    (∀ (noise : PixelNoise ℝ) (image point : ℕ),
      (noise.maxAbs ≠ 0 → (noise.sample image point).x ∈ Set.Ico (-|noise.maxAbs|) |noise.maxAbs| ∧
        (noise.sample image point).y ∈ Set.Ico (-|noise.maxAbs|) |noise.maxAbs|) ∧
      (noise.maxAbs = 0 → noise.sample image point = ⟨0, 0⟩) ∧
      ∀ uv, |(noise.apply image point uv).x - uv.x| ≤ |noise.maxAbs| ∧
        |(noise.apply image point uv).y - uv.y| ≤ |noise.maxAbs|) ∧
    ∀ (low high : Vec3 ℝ) (seed : UInt64), low.x ≤ high.x → low.y ≤ high.y → low.z ≤ high.z → ∀ n : ℕ,
      (Scene.pointsInBox n low high seed).length = n ∧
      (∀ p ∈ Scene.pointsInBox n low high seed, Scene.InBox low high p) ∧
      ∀ m, n ≤ m → Scene.pointsInBox n low high seed <+: Scene.pointsInBox m low high seed := by
  refine ⟨SampleKey.exists_sample_eq, fun noise image point => ?_, fun low high seed hx hy hz n => ?_⟩
  · exact ⟨fun h => PixelNoise.sample_mem h image point, fun h => PixelNoise.sample_of_maxAbs_eq_zero h image point,
      noise.abs_apply_sub_le image point⟩
  · exact ⟨Scene.length_pointsInBox low high seed n, fun p => Scene.inBox_of_mem hx hy hz,
      fun m => Scene.pointsInBox_prefix low high seed⟩

/-- Noise of a negative bound and of none, and points of a box that is flat along one axis. -/
theorem samples_inRange_flat :
    (PixelNoise.sample ⟨7, -2⟩ 3 11 : Vec2 ℝ).x ∈ Set.Ico (-2) 2 ∧
      (PixelNoise.sample ⟨7, 0⟩ 3 11 : Vec2 ℝ) = ⟨0, 0⟩ ∧
      ∀ p ∈ Scene.pointsInBox 5 (⟨-1, 3, 0⟩ : Vec3 ℝ) ⟨1, 3, 4⟩ 42, p.y = 3 := by
  obtain ⟨-, hnoise, hbox⟩ := samples_inRange
  refine ⟨?_, (hnoise ⟨7, 0⟩ 3 11).2.1 rfl, fun p hp => ?_⟩
  · obtain ⟨hnonzero, -⟩ := hnoise ⟨7, -2⟩ 3 11
    have hx := (hnonzero (by norm_num)).1
    rwa [abs_neg, abs_two] at hx
  · obtain ⟨-, hmem, -⟩ := hbox ⟨-1, 3, 0⟩ ⟨1, 3, 4⟩ 42 (by norm_num) le_rfl (by norm_num) 5
    exact le_antisymm (hmem p hp).y.2 (hmem p hp).y.1

end MultiView
