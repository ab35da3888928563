import MultiView.Json.Basic

/-!
# Writing JSON

The text of a JSON value on one line, for a given text of its numbers.
-/

namespace MultiView.Json

/-- The text of a character within quotes. -/
def escape (c : Char) : String :=
  if c = '"' then "\\\""
  else if c = '\\' then "\\\\"
  else if c.toNat < 0x20 then "\\u00" ++ String.ofList [Nat.digitChar (c.toNat / 16), Nat.digitChar (c.toNat % 16)]
  else c.toString

def quote (s : String) : String := "\"" ++ String.join (s.toList.map escape) ++ "\""

variable {α : Type}

mutual

def render (number : α → String) : Json α → String
  | null => "null"
  | bool b => if b then "true" else "false"
  | nat n => toString n
  | num x => number x
  | str s => quote s
  | arr items => "[" ++ ", ".intercalate (renderItems number items) ++ "]"
  | obj members => "\x7b" ++ ", ".intercalate (renderMembers number members) ++ "\x7d"
  | unreadable => "null"

def renderItems (number : α → String) : List (Json α) → List String
  | [] => []
  | j :: js => render number j :: renderItems number js

def renderMembers (number : α → String) : List (String × Json α) → List String
  | [] => []
  | (k, j) :: ms => (quote k ++ ": " ++ render number j) :: renderMembers number ms

end

end MultiView.Json
