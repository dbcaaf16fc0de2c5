/-!
# JSON values

The values of JSON documents as far as the library reads and writes them: numbers are integers,
and a number of any other form is known only to be one.
-/

namespace Strongbox

/-- A JSON value. -/
inductive Json where
  | null
  | bool (b : Bool)
  | int (n : Int)
  | fraction
  | text (s : String)
  | list (items : List Json)
  | object (members : List (String × Json))
  deriving Inhabited

namespace Json

/-- The member of a name, if the value is an object that has one. -/
def member? (name : String) : Json → Option Json
  | object members => (members.find? (·.1 == name)).map (·.2)
  | _ => none

/-- The text, if the value is one. -/
def text? : Json → Option String
  | text s => some s
  | _ => none

/-- The number, if the value is a natural number below a bound. -/
def natBelow? (bound : Nat) : Json → Option Nat
  | int n => if 0 ≤ n ∧ n < bound then some n.toNat else none
  | _ => none

/-- The name of a case that carries nothing: a text, or an object whose one member is null. -/
def caseName? : Json → Option String
  | text s => some s
  | object [(name, null)] => some name
  | _ => none

/-- The values of the named fields of a structure, each none where it is missing: members of an
object, or the items of a list that has one for each field. -/
def fields? (names : List String) : Json → Option (List (Option Json))
  | object members =>
    some (names.map fun name => (members.find? (·.1 == name)).map (·.2))
  | list items => if items.length = names.length then some (items.map some) else none
  | _ => none

/-- A text or null. -/
def ofText? (s : Option String) : Json :=
  match s with
  | some s => text s
  | none => null

end Json

end Strongbox
