import MultiView.Assoc

/-!
# Values of parameter blocks

What an optimizer starts from and what it returns: a list of numbers for each block, by the block's name.
-/

namespace MultiView

abbrev Values (α : Type) := Assoc String (List α)

end MultiView
