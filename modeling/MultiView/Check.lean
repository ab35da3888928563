/-!
# Checks

A check is a computation in `Except ε` that returns nothing; checks are done in order and the first that fails gives
the error.
-/

namespace MultiView

/-- Fail with `e` unless `c` holds. -/
@[inline] def require {ε : Type} (c : Prop) [Decidable c] (e : ε) : Except ε Unit := if c then .ok () else .error e

/-- Do a check for every element of a list together with its position, counted from `start`. -/
def checkEach {ε τ : Type} (check : Nat → τ → Except ε Unit) : (start : Nat) → List τ → Except ε Unit
  | _, [] => .ok ()
  | i, x :: xs => do
    check i x
    checkEach check (i + 1) xs

/-- The value of an option, or the error `e`. -/
@[inline] def orFail {ε τ : Type} (e : ε) : Option τ → Except ε τ
  | some x => .ok x
  | none => .error e

end MultiView
