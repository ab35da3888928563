import MultiView.Decimal.Basic
import MultiView.Decimal.Binary

/-!
# Rounding a binary fraction to decimal places or digits

Both roundings are of the exact value, a half going to the even neighbour.
-/

namespace MultiView.Binary

/-- The magnitude in units of `10 ^ -places`. -/
def toPlaces (places : Nat) (b : Binary) : Decimal :=
  ⟨(b.magnitude.dividePowerOfTen (-places)).roundHalfEven, -places⟩

/-- The magnitude to a number of digits, tried at falling exponents of the last digit until there are enough. -/
def searchDigits (digits : Nat) (b : Binary) : (fuel : Nat) → (last : Int) → Decimal
  | 0, last => ⟨0, last⟩
  | fuel + 1, last =>
    let r := b.magnitude.dividePowerOfTen last
    if r.numerator / r.denominator < Nat.pow 10 (digits - 1) then searchDigits digits b fuel (last - 1)
    else
      let c := r.roundHalfEven
      if c = Nat.pow 10 digits then ⟨Nat.pow 10 (digits - 1), last + 1⟩ else ⟨c, last⟩

/-- The nonzero magnitude to a positive number of digits. -/
def toDigits (digits : Nat) (b : Binary) : Decimal := searchDigits digits b 4 (b.exponentBound + 1 - digits)

end MultiView.Binary
