/-!
# JSON values

JSON values over a type of numbers. Natural numbers below `2 ^ 64` that are written without point and exponent are kept
apart, as `nat`, because counts and indices accept nothing else. Objects keep their members as written, so a repeated
name can be seen.

Some text is well formed and yet stands for no value: a number out of range, half of a surrogate pair, or nesting that
is too deep. It is kept as `unreadable`, which no reader accepts, because it does no harm where nothing reads it.
-/

namespace MultiView

inductive Json (α : Type) where
  | null
  | bool (b : Bool)
  | nat (n : Nat)
  | num (x : α)
  | str (s : String)
  | arr (items : List (Json α))
  | obj (members : List (String × Json α))
  /-- Well-formed text without a value. -/
  | unreadable

namespace Json

variable {α β : Type}

mutual

/-- The value with its numbers mapped, the natural ones apart. -/
def map (f : α → β) : Json α → Json β
  | null => null
  | bool b => bool b
  | nat n => nat n
  | num x => num (f x)
  | str s => str s
  | arr items => arr (mapItems f items)
  | obj members => obj (mapMembers f members)
  | unreadable => unreadable

def mapItems (f : α → β) : List (Json α) → List (Json β)
  | [] => []
  | j :: js => map f j :: mapItems f js

def mapMembers (f : α → β) : List (String × Json α) → List (String × Json β)
  | [] => []
  | (k, j) :: ms => (k, map f j) :: mapMembers f ms

end

mutual

/-- Does the text have a value in all its parts? -/
def isReadable : Json α → Bool
  | arr items => areReadableItems items
  | obj members => areReadableMembers members
  | unreadable => false
  | _ => true

def areReadableItems : List (Json α) → Bool
  | [] => true
  | j :: js => isReadable j && areReadableItems js

def areReadableMembers : List (String × Json α) → Bool
  | [] => true
  | (_, j) :: ms => isReadable j && areReadableMembers ms

end

end Json

end MultiView
