import Mathlib
import MultiView.Synthetic.Noise

/-!
# Keys that tell samples apart

A word can be told from its exclusive or with a shift of itself (`SampleKey.xor_shiftRight_bijective`) and from its
product with an odd factor (`SampleKey.mul_bijective`), so each round of the hash can be undone, and so can the hash
(`SampleKey.hash_bijective`). A key is the exclusive or of its seed and of one product for each index: along each of the
three there is one key for each word (`SampleKey.separates_mix`), and the hash does not bring two of them together
(`SampleKey.keys_apart`).
-/

namespace MultiView

namespace SampleKey

/-! ## Words -/

section Words

variable {shift factor : UInt64}

/-- Only zero is its own shift. -/
theorem eq_zero_of_shiftRight_eq {d : UInt64} (hshift : shift.toNat % 64 ≠ 0) (h : d >>> shift = d) : d = 0 := by
  have hdiv : d.toNat / 2 ^ (shift.toNat % 64) = d.toNat := by
    rw [← Nat.shiftRight_eq_div_pow, ← UInt64.toNat_shiftRight, h]
  rcases Nat.div_eq_self.1 hdiv with hzero | hone
  · exact UInt64.toNat_inj.1 hzero
  · exact absurd hone (Nat.one_lt_two_pow hshift).ne'

theorem xor_shiftRight_bijective (hshift : shift.toNat % 64 ≠ 0) :
    Function.Bijective fun z : UInt64 => z ^^^ (z >>> shift) := by
  refine Finite.injective_iff_bijective.1 fun z w h => ?_
  -- what two words with the same image differ by is its own shift
  have hdiff : (z ^^^ w) >>> shift = z ^^^ w :=
    calc (z ^^^ w) >>> shift = (z >>> shift) ^^^ (w >>> shift) := UInt64.shiftRight_xor
      _ = z ^^^ (w ^^^ (w >>> shift)) ^^^ (w >>> shift) := by rw [(xor_eq_iff_right_eq _ _ _).1 h]
      _ = z ^^^ w := by rw [xor_assoc, xor_cancel_right]
  exact xor_eq_zero_iff.1 (eq_zero_of_shiftRight_eq hshift hdiff)

theorem mul_bijective (hfactor : factor.toNat % 2 = 1) : Function.Bijective fun z : UInt64 => z * factor := by
  have hcoprime : Nat.Coprime (2 ^ 64) factor.toNat :=
    Nat.Coprime.pow_left 64 (Nat.coprime_two_left.2 (Nat.odd_iff.2 hfactor))
  refine Finite.injective_iff_bijective.1 fun z w h => UInt64.toNat_inj.1 ?_
  have hmod : z.toNat * factor.toNat ≡ w.toNat * factor.toNat [MOD 2 ^ 64] := by
    rw [Nat.ModEq, ← UInt64.toNat_mul, ← UInt64.toNat_mul]
    exact congrArg UInt64.toNat h
  exact (Nat.ModEq.cancel_right_of_coprime hcoprime hmod).eq_of_lt_of_lt z.toNat_lt w.toNat_lt

/-- Indices of 64 bits are words. -/
theorem bijOn_toUInt64 : Set.BijOn Nat.toUInt64 (Set.Iio (2 ^ 64)) Set.univ := by
  refine ⟨fun _ _ => Set.mem_univ _, fun i hi j hj h => ?_, fun w _ => ⟨w.toNat, w.toNat_lt, UInt64.ofNat_toNat⟩⟩
  rw [← UInt64.toNat_ofNat_of_lt' hi, ← UInt64.toNat_ofNat_of_lt' hj]
  exact congrArg UInt64.toNat h

theorem bijOn_mul (hfactor : factor.toNat % 2 = 1) :
    Set.BijOn (fun i : ℕ => i.toUInt64 * factor) (Set.Iio (2 ^ 64)) Set.univ :=
  (Set.bijOn_univ.2 (mul_bijective hfactor)).comp bijOn_toUInt64

end Words

/-! ## The hash -/

theorem scramble_bijective {shift factor : UInt64} (hshift : shift.toNat % 64 ≠ 0) (hfactor : factor.toNat % 2 = 1) :
    Function.Bijective (scramble shift factor) :=
  (mul_bijective hfactor).comp (xor_shiftRight_bijective hshift)

/-- The rounds of the hash, from the last to the first, are bijections of the words. -/
theorem hash_bijective : Function.Bijective hash :=
  (xor_shiftRight_bijective (by decide)).comp <| (scramble_bijective (by decide) (by decide)).comp <|
    (scramble_bijective (by decide) (by decide)).comp (AddGroup.addRight_bijective _)

/-! ## Keys -/

/-- Words made from a seed and two indices of 64 bits. If two of the three are fixed, there is one word for each value
of the other, and one value for each word. -/
structure Separates (word : UInt64 → ℕ → ℕ → UInt64) : Prop where
  seed : ∀ a b, Function.Bijective fun seed => word seed a b
  first : ∀ seed b, Set.BijOn (fun a => word seed a b) (Set.Iio (2 ^ 64)) Set.univ
  second : ∀ seed a, Set.BijOn (fun b => word seed a b) (Set.Iio (2 ^ 64)) Set.univ

theorem Separates.comp {word : UInt64 → ℕ → ℕ → UInt64} {f : UInt64 → UInt64} (hf : Function.Bijective f)
    (h : Separates word) : Separates fun seed a b => f (word seed a b) where
  seed a b := hf.comp (h.seed a b)
  first seed b := (Set.bijOn_univ.2 hf).comp (h.first seed b)
  second seed a := (Set.bijOn_univ.2 hf).comp (h.second seed a)

theorem separates_mix : Separates mix where
  seed _ _ := (xor_left_involutive _).bijective.comp (xor_left_involutive _).bijective
  first seed _ :=
    (Set.bijOn_univ.2 ((xor_left_involutive _).bijective.comp (xor_right_involutive seed).bijective)).comp
      (bijOn_mul (by decide))
  second _ _ := (Set.bijOn_univ.2 (xor_right_involutive _).bijective).comp (bijOn_mul (by decide))

/-- The second coordinate of a sample has a key of its own. -/
theorem second_ne (key : UInt64) : second key ≠ key := fun h => absurd (xor_left_eq_self_iff.1 h) (by decide)

/-- The hash is a bijection of the words. Keys, and with them hashes, are different for different seeds, for different
first indices and for different second indices, and for the two coordinates of a sample. -/
theorem keys_apart : Function.Bijective hash ∧ Separates mix ∧ Separates (fun seed a b => hash (mix seed a b)) ∧
    ∀ key, second key ≠ key ∧ hash (second key) ≠ hash key :=
  ⟨hash_bijective, separates_mix, separates_mix.comp hash_bijective,
    fun key => ⟨second_ne key, hash_bijective.injective.ne (second_ne key)⟩⟩

end SampleKey

end MultiView
