import MultiView.Decimal.Basic
import MultiView.Json.Basic

/-!
# Reading JSON

A strict reader: one value, with nothing but blanks around it. A number without point and exponent is a natural number
if it is below `2 ^ 64` and has no sign; every other number is the nearest binary64 number.

Three things are well formed but `unreadable`: a number that is too large, an array or object inside 127 others, and a
string with half of a surrogate pair; an object with such a name is unreadable as a whole.

Each function returns what it read and the rest of the text. Fuel bounds the depth of calls; twice the length of the
text is enough, because of two calls in a row at least one takes a character.
-/

namespace MultiView

/-- The binary64 number nearest to a decimal, infinite above the range. -/
def Decimal.toFloat (d : Decimal) : Float :=
  if d.coefficient = 0 ∨ d.leading < -400 then 0
  else if 400 < d.leading then 1 / 0
  else if 0 ≤ d.exponent then Float.ofScientific d.coefficient false d.exponent.toNat
  else Float.ofScientific d.coefficient true (-d.exponent).toNat

namespace Json.Parser

def isBlank (c : Char) : Bool := c == ' ' || c == '\n' || c == '\t' || c == '\r'

def skipBlanks (cs : List Char) : List Char := cs.dropWhile isBlank

/-! ## Numbers -/

/-- The number that ASCII digits spell. -/
def ofDigits (ds : List Char) : Nat := ds.foldl (fun n d => 10 * n + (d.toNat - '0'.toNat)) 0

/-- At least one digit. -/
def digits? (cs : List Char) : Option (List Char × List Char) :=
  let ds := cs.takeWhile Char.isDigit
  if ds.isEmpty then none else some (ds, cs.dropWhile Char.isDigit)

/-- The digits before the point: a zero stands alone. -/
def whole? : List Char → Option (List Char × List Char)
  | '0' :: cs => some (['0'], cs)
  | cs => digits? cs

/-- A point with digits after it, if there is a point. -/
def fraction? : List Char → Option (Option (List Char) × List Char)
  | '.' :: cs => (digits? cs).map fun (ds, rest) => (some ds, rest)
  | cs => some (none, cs)

/-- An exponent with its digits, if there is a mark of one. -/
def exponent? : List Char → Option (Option Int × List Char)
  | c :: cs =>
    if c = 'e' ∨ c = 'E' then
      let (sign, cs) : Int × List Char :=
        match cs with
        | '-' :: rest => (-1, rest)
        | '+' :: rest => (1, rest)
        | _ => (1, cs)
      (digits? cs).map fun (ds, rest) => (some (sign * ofDigits ds), rest)
    else some (none, c :: cs)
  | [] => some (none, [])

/-- The value of an unsigned number, and of the same number with a minus sign. -/
def unsigned? (negative : Bool) (cs : List Char) : Option (Json Float × List Char) := do
  let (whole, cs) ← whole? cs
  let (fraction, cs) ← fraction? cs
  let (exponent, cs) ← exponent? cs
  let decimals := fraction.getD []
  let magnitude : Decimal := ⟨ofDigits (whole ++ decimals), exponent.getD 0 - decimals.length⟩
  if fraction.isNone && exponent.isNone && !negative && magnitude.coefficient < Nat.pow 2 64 then
    return (.nat magnitude.coefficient, cs)
  else
    let x := magnitude.toFloat
    return (if x.isFinite then .num (if negative then -x else x) else .unreadable, cs)

def number? : List Char → Option (Json Float × List Char)
  | '-' :: cs => unsigned? true cs
  | cs => unsigned? false cs

/-! ## Strings -/

def hexDigit? (c : Char) : Option Nat :=
  if c.isDigit then some (c.toNat - '0'.toNat)
  else if 'a' ≤ c ∧ c ≤ 'f' then some (c.toNat - 'a'.toNat + 10)
  else if 'A' ≤ c ∧ c ≤ 'F' then some (c.toNat - 'A'.toNat + 10)
  else none

/-- Four hexadecimal digits. -/
def hex4? : List Char → Option (Nat × List Char)
  | a :: b :: c :: d :: cs => do
    let a ← hexDigit? a
    let b ← hexDigit? b
    let c ← hexDigit? c
    let d ← hexDigit? d
    return (((a * 16 + b) * 16 + c) * 16 + d, cs)
  | _ => none

/-- The second half of a surrogate pair, as an escape. -/
def lowSurrogate? : List Char → Option (Nat × List Char)
  | '\\' :: 'u' :: cs => (hex4? cs).filter fun (n, _) => decide (0xDC00 ≤ n ∧ n < 0xE000)
  | _ => none

/-- The character of an escape by number; one outside the basic plane is two escapes. Half of a pair is an escape
without a character. -/
def unicode? (cs : List Char) : Option (Option Char × List Char) := do
  let (n, cs) ← hex4? cs
  if 0xD800 ≤ n ∧ n < 0xDC00 then
    match lowSurrogate? cs with
    | some (m, cs) => return (some (Char.ofNat (0x10000 + (n - 0xD800) * 0x400 + (m - 0xDC00))), cs)
    | none => return (none, cs)
  else if 0xDC00 ≤ n ∧ n < 0xE000 then return (none, cs)
  else return (some (Char.ofNat n), cs)

/-- The character of an escape, after the backslash. -/
def escaped? : List Char → Option (Option Char × List Char)
  | '"' :: cs => some (some '"', cs)
  | '\\' :: cs => some (some '\\', cs)
  | '/' :: cs => some (some '/', cs)
  | 'b' :: cs => some (some (Char.ofNat 8), cs)
  | 'f' :: cs => some (some (Char.ofNat 12), cs)
  | 'n' :: cs => some (some '\n', cs)
  | 'r' :: cs => some (some '\r', cs)
  | 't' :: cs => some (some '\t', cs)
  | 'u' :: cs => unicode? cs
  | _ => none

/-- The rest of a string after its opening quote. It has no value if an escape in it has none. -/
def string? : (fuel : Nat) → List Char → Option (Option (List Char) × List Char)
  | 0, _ => none
  | _ + 1, [] => none
  | _ + 1, '"' :: cs => some (some [], cs)
  | fuel + 1, '\\' :: cs => do
    let (c, cs) ← escaped? cs
    let (s, cs) ← string? fuel cs
    return (c.bind fun c => s.map (c :: ·), cs)
  | fuel + 1, c :: cs =>
    if c.toNat < 0x20 then none
    else do
      let (s, cs) ← string? fuel cs
      return (s.map (c :: ·), cs)

/-! ## Values -/

/-- A word that is a value. -/
def word? (cs : List Char) : Option (Json Float × List Char) :=
  match cs with
  | 'n' :: 'u' :: 'l' :: 'l' :: cs => some (.null, cs)
  | 't' :: 'r' :: 'u' :: 'e' :: cs => some (.bool true, cs)
  | 'f' :: 'a' :: 'l' :: 's' :: 'e' :: cs => some (.bool false, cs)
  | _ => none

/-- A string, if it has a value. -/
def string (s : Option (List Char)) : Json Float :=
  match s with
  | some s => .str (String.ofList s)
  | none => .unreadable

/-- An array, if one more container may be open. -/
def array (depth : Nat) (items : List (Json Float)) : Json Float := if depth = 0 then .unreadable else .arr items

/-- An object, if one more container may be open and all names have a value. -/
def object (depth : Nat) (members : Option (List (String × Json Float))) : Json Float :=
  match members with
  | some members => if depth = 0 then .unreadable else .obj members
  | none => .unreadable

mutual

/-- A value, with blanks before it. At most `depth` containers may be open in it. -/
def value? : (fuel depth : Nat) → List Char → Option (Json Float × List Char)
  | 0, _, _ => none
  | fuel + 1, depth, cs =>
    match skipBlanks cs with
    | '"' :: cs => (string? (fuel + 1) cs).map fun (s, cs) => (string s, cs)
    | '[' :: cs =>
      match skipBlanks cs with
      | ']' :: cs => some (array depth [], cs)
      | cs => (items? fuel (depth - 1) cs).map fun (items, cs) => (array depth items, cs)
    | '\x7b' :: cs =>
      match skipBlanks cs with
      | '\x7d' :: cs => some (object depth (some []), cs)
      | cs => (members? fuel (depth - 1) cs).map fun (members, cs) => (object depth members, cs)
    | c :: cs => if c.isDigit ∨ c = '-' then number? (c :: cs) else word? (c :: cs)
    | [] => none

/-- One or more items up to the closing bracket. -/
def items? : (fuel depth : Nat) → List Char → Option (List (Json Float) × List Char)
  | 0, _, _ => none
  | fuel + 1, depth, cs => do
    let (j, cs) ← value? fuel depth cs
    match skipBlanks cs with
    | ',' :: cs =>
      let (js, cs) ← items? fuel depth cs
      return (j :: js, cs)
    | ']' :: cs => return ([j], cs)
    | _ => none

/-- One or more members up to the closing brace. They have no value if one of the names has none. -/
def members? : (fuel depth : Nat) → List Char → Option (Option (List (String × Json Float)) × List Char)
  | 0, _, _ => none
  | fuel + 1, depth, cs => do
    let '"' :: cs := skipBlanks cs | none
    let (name, cs) ← string? fuel cs
    let ':' :: cs := skipBlanks cs | none
    let (j, cs) ← value? fuel depth cs
    let m := name.map fun name => (String.ofList name, j)
    match skipBlanks cs with
    | ',' :: cs =>
      let (ms, cs) ← members? fuel depth cs
      return (m.bind fun m => ms.map (m :: ·), cs)
    | '\x7d' :: cs => return (m.map ([·]), cs)
    | _ => none

end

end Json.Parser

/-- The value of a JSON text. -/
def Json.parse? (text : String) : Option (Json Float) :=
  let cs := text.toList
  match Json.Parser.value? (2 * cs.length + 2) 127 cs with
  | some (j, rest) => if (Json.Parser.skipBlanks rest).isEmpty then some j else none
  | none => none

end MultiView
