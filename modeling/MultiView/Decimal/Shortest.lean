import MultiView.Decimal.Basic
import MultiView.Decimal.Binary

/-!
# The shortest decimal that reads back

Reading a decimal text takes the nearest binary64 number, so a whole interval around each number reads back as it. Of
the decimals in that interval `Binary.shortest` gives one with fewest digits, and of these the nearest.

The search runs over the grids `10 ^ e` from coarse to fine. On each grid only the two neighbours of the number can be
in the interval if any point is.
-/

namespace MultiView.Binary

/-- The multiples `c * 10 ^ e`, of the two around the magnitude, that read back; the nearer of two. -/
def onGrid? (b : Binary) (e : Int) : Option Nat :=
  let scaled (m : Nat) : Ratio := (Ratio.ofPowerOfTwo m (b.exponent - 2)).dividePowerOfTen e
  let value := scaled (4 * b.mantissa)
  let low := (scaled (4 * b.mantissa - if b.isNarrowBelow then 1 else 2)).numerator
  let high := (scaled (4 * b.mantissa + 2)).numerator
  let d := value.denominator
  let readsBack (c : Nat) : Bool :=
    if b.mantissa % 2 = 0 then decide (low ≤ c * d ∧ c * d ≤ high) else decide (low < c * d ∧ c * d < high)
  let below := value.numerator / d
  let above := below + 1
  match readsBack below, readsBack above with
  | true, true => if value.numerator - below * d < above * d - value.numerator then some below else some above
  | true, false => some below
  | false, true => some above
  | false, false => none

/-- The first of the grids `10 ^ e`, `10 ^ (e - 1)`, … with a decimal that reads back. -/
def searchGrid (b : Binary) : (fuel : Nat) → (e : Int) → Decimal
  | 0, e => ⟨0, e⟩
  | fuel + 1, e =>
    match b.onGrid? e with
    | some c => ⟨c, e⟩
    | none => searchGrid b fuel (e - 1)

/-- The shortest decimal of the magnitude. Seventeen digits always suffice, and the bound is off by at most two. -/
def shortest (b : Binary) : Decimal :=
  if b.mantissa = 0 then ⟨0, 0⟩ else (searchGrid b 20 b.exponentBound).trim 20

end MultiView.Binary
