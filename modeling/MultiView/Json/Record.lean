import MultiView.Geometry.Vector
import MultiView.Json.Basic

/-!
# Reading configuration values

Typed reading of JSON values. A record is an object or an array of its fields in their order. Members that are not
fields are ignored, a repeated field is refused, and what a missing field means is up to its reader: an error or a
default.
-/

namespace MultiView.Json

variable {α τ : Type}

def nat? : Json α → Option Nat
  | nat n => some n
  | _ => none

def bool? : Json α → Option Bool
  | bool b => some b
  | _ => none

/-- A number of either kind. -/
def scalar? [Scalar α] : Json α → Option α
  | nat n => some (Scalar.ofNat n)
  | num x => some x
  | _ => none

/-- The items of an array, each read. -/
def list? (read : Json α → Option τ) : Json α → Option (List τ)
  | arr items => items.mapM read
  | _ => none

/-- `null`, or a value that is read. -/
def nullable? (read : Json α → Option τ) : Json α → Option (Option τ)
  | null => some none
  | j => (read j).map some

/-- An array of exactly two numbers. -/
def vec2? [Scalar α] (j : Json α) : Option (Vec2 α) :=
  match j.list? scalar? with
  | some [x, y] => some ⟨x, y⟩
  | _ => none

/-- An array of exactly three numbers. -/
def vec3? [Scalar α] (j : Json α) : Option (Vec3 α) :=
  match j.list? scalar? with
  | some [x, y, z] => some ⟨x, y, z⟩
  | _ => none

/-- The word of a choice that carries no data: a string, or an object with the word as only member and `null`. -/
def choice? : Json α → Option String
  | str s => some s
  | obj [(s, null)] => some s
  | _ => none

/-- The fields of a record that are present, by name. -/
def record? (names : List String) : Json α → Option (List (String × Json α))
  | obj members =>
    let fields := members.filter fun m => names.contains m.1
    if (fields.map (·.1)).Nodup then some fields else none
  | arr items => if items.length ≤ names.length then some (names.zip items) else none
  | _ => none

/-- A field that has to be present. -/
def required (fields : List (String × Json α)) (name : String) (read : Json α → Option τ) : Option τ :=
  (fields.lookup name).bind read

/-- A field with a value for when it is missing. -/
def withDefault (fields : List (String × Json α)) (name : String) (default : τ) (read : Json α → Option τ) :
    Option τ :=
  match fields.lookup name with
  | some j => read j
  | none => some default

/-! ## Writing -/

/-- A number; one that is not finite has no JSON number, and is written as `null`. -/
def ofScalar [Scalar α] (x : α) : Json α := if Scalar.isFinite x then num x else null

def ofScalars [Scalar α] (xs : List α) : Json α := arr (xs.map ofScalar)

def ofNats (ns : List Nat) : Json α := arr (ns.map nat)

def ofOption (write : τ → Json α) : Option τ → Json α
  | some x => write x
  | none => null

end MultiView.Json
