import MultiView.Proofs.Camera.Undistort
import MultiView.Synthetic.Noise

/-!
# Bounds of pixel noise

A hash has 53 upper bits, so a sample is at least zero and below one (`SampleKey.sample_mem`), and noise is in the
half-open interval of its bound along each axis (`PixelNoise.sample_mem`), which is nothing if the bound is zero
(`PixelNoise.sample_of_maxAbs_eq_zero`).
-/

namespace MultiView

namespace SampleKey

theorem numerator_lt (key : UInt64) : numerator key < 2 ^ 53 := by
  have hword : (hash key).toNat < 2 ^ 64 := UInt64.toNat_lt _
  rw [numerator, UInt64.toNat_shiftRight, Nat.shiftRight_eq_div_pow]
  exact Nat.div_lt_of_lt_mul hword

theorem sample_eq (key : UInt64) : (sample key : ℝ) = numerator key / 2 ^ 53 := by
  have hsteps : ((Nat.pow 2 53 : ℕ) : ℝ) = 2 ^ 53 := by norm_num
  rw [sample, Scalar.ofNat_eq, Scalar.ofNat_eq, hsteps, mul_one_div]

theorem sample_mem (key : UInt64) : (sample key : ℝ) ∈ Set.Ico 0 1 := by
  have hlt : (numerator key : ℝ) < 2 ^ 53 := by exact_mod_cast numerator_lt key
  rw [sample_eq]
  exact ⟨by positivity, (div_lt_one (by positivity)).2 hlt⟩

end SampleKey

namespace PixelNoise

/-- A sample moved from `[0, 1)` to the interval of the bound. -/
theorem spread_mem {bound : ℝ} (hbound : 0 < bound) (key : UInt64) :
    (SampleKey.sample key - Scalar.half) * Scalar.two * bound ∈ Set.Ico (-bound) bound := by
  obtain ⟨hlow, hhigh⟩ := SampleKey.sample_mem key
  have hunit : (SampleKey.sample key - 1 / 2 : ℝ) * 2 ∈ Set.Ico (-1) 1 := ⟨by linarith, by linarith⟩
  rw [Scalar.half_eq, Scalar.two_eq]
  exact ⟨by linarith [mul_le_mul_of_nonneg_right hunit.1 hbound.le], mul_lt_of_lt_one_left hbound hunit.2⟩

theorem sample_mem {noise : PixelNoise ℝ} (h : noise.maxAbs ≠ 0) (image point : Nat) :
    (noise.sample image point).x ∈ Set.Ico (-|noise.maxAbs|) |noise.maxAbs| ∧
      (noise.sample image point).y ∈ Set.Ico (-|noise.maxAbs|) |noise.maxAbs| := by
  have hbound : (|noise.maxAbs| == 0) = false := decide_eq_false (abs_ne_zero.2 h)
  rw [sample, Scalar.abs_eq, hbound]
  exact ⟨spread_mem (abs_pos.2 h) _, spread_mem (abs_pos.2 h) _⟩

/-- There is no noise within a bound of zero. -/
theorem sample_of_maxAbs_eq_zero {noise : PixelNoise ℝ} (h : noise.maxAbs = 0) (image point : Nat) :
    noise.sample image point = ⟨0, 0⟩ := by
  have hbound : (|noise.maxAbs| == 0) = true := decide_eq_true (abs_eq_zero.2 h)
  rw [sample, Scalar.abs_eq, hbound]
  rfl

theorem abs_sample_le (noise : PixelNoise ℝ) (image point : Nat) :
    |(noise.sample image point).x| ≤ |noise.maxAbs| ∧ |(noise.sample image point).y| ≤ |noise.maxAbs| := by
  by_cases h : noise.maxAbs = 0
  · simp [sample_of_maxAbs_eq_zero h]
  · obtain ⟨hx, hy⟩ := sample_mem h image point
    exact ⟨abs_le.2 ⟨hx.1, hx.2.le⟩, abs_le.2 ⟨hy.1, hy.2.le⟩⟩

end PixelNoise

end MultiView
