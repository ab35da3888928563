/-!
# Decimal numbers and their layouts

A decimal number is `coefficient * 10 ^ exponent`. It is written positionally, with a point where one is needed, or in
scientific form.
-/

namespace MultiView

structure Decimal where
  coefficient : Nat
  exponent : Int

namespace Decimal

def zeros (n : Nat) : String := String.ofList (List.replicate n '0')

/-- The digits of the coefficient. -/
def digits (d : Decimal) : String := toString d.coefficient

/-- The exponent of the leading digit. -/
def leading (d : Decimal) : Int := d.digits.length - 1 + d.exponent

/-- The coefficient without the zeros at its end. At most `fuel` zeros are dropped. -/
def trim : (fuel : Nat) → Decimal → Decimal
  | 0, d => d
  | fuel + 1, d =>
    if d.coefficient ≠ 0 ∧ d.coefficient % 10 = 0 then trim fuel ⟨d.coefficient / 10, d.exponent + 1⟩ else d

/-- A text with a point before its last `n` characters, preceded by zeros as far as needed. -/
def pointed (digits : String) (n : Nat) : String :=
  let padded := zeros (n + 1 - digits.length) ++ digits
  let whole := padded.length - n
  if n = 0 then digits
  else String.ofList (padded.toList.take whole) ++ "." ++ String.ofList (padded.toList.drop whole)

/-- All digits at their places. -/
def positional (d : Decimal) : String :=
  if 0 ≤ d.exponent then d.digits ++ zeros d.exponent.toNat else pointed d.digits (-d.exponent).toNat

/-- One digit before the point, the other digits of the coefficient after it, and the exponent. -/
def scientific (d : Decimal) : String :=
  pointed d.digits (d.digits.length - 1) ++ "e" ++ toString d.leading

end Decimal

end MultiView
