import MultiView.Decimal.Shortest

/-!
# Numbers in messages

Messages show a number by its shortest decimal. A single number is written positionally whatever its size; in a list
of values every number keeps a mark of being a fraction, and very large or small ones are written with an exponent.
-/

namespace MultiView

/-- Scalars that messages can show. -/
class NumberText (α : Type) where
  /-- A number within a sentence. -/
  plain : α → String
  /-- A number within a list of values. -/
  listed : α → String

namespace NumberText

/-- The sign and the shortest decimal of a number in a layout, or the name of a number that is not finite. -/
def ofFloat (layout : Decimal → String) (x : Float) : String :=
  match Binary.ofFloat? x with
  | some b => (if b.negative then "-" else "") ++ layout b.shortest
  | none => if x.isNaN then "NaN" else if x < 0 then "-inf" else "inf"

/-- Positional from `10 ^ -4` up to but excluding `10 ^ 16`, with a fraction in any case; scientific outside. -/
def listedLayout (d : Decimal) : String :=
  if d.coefficient ≠ 0 ∧ (d.leading < -4 ∨ 16 ≤ d.leading) then d.scientific
  else if 0 ≤ d.exponent then d.positional ++ ".0"
  else d.positional

instance : NumberText Float where
  plain := ofFloat Decimal.positional
  listed := ofFloat listedLayout

variable {α : Type} [NumberText α]

/-- The values of a list in brackets. -/
def list (xs : List α) : String := "[" ++ ", ".intercalate (xs.map listed) ++ "]"

end NumberText

end MultiView
