/-!
# Lock — formats

A locked text begins with the tag of the format it was written in.  New texts are written in the
current format; the legacy format is still read.
-/

namespace Strongbox.Lock

/-- A format of locked texts. -/
inductive Format where
  | legacy
  | current
  deriving DecidableEq

namespace Format

/-- The start of every text in the format. -/
def tag : Format → String
  | legacy => "v1:"
  | current => "v2:"

/-- The name of the format in reports. -/
def name : Format → String
  | legacy => "Legacy"
  | current => "Current"

/-- The format with a name. -/
def ofName? (name : String) : Option Format :=
  [legacy, current].find? (·.name == name)

/-- The format of a locked text and what follows the tag. -/
def split? (locked : String) : Option (Format × List Char) :=
  match locked.toList with
  | 'v' :: '1' :: ':' :: rest => some (legacy, rest)
  | 'v' :: '2' :: ':' :: rest => some (current, rest)
  | _ => none

/-- The format of a locked text. -/
def of? (locked : String) : Option Format :=
  (split? locked).map (·.1)

end Format

end Strongbox.Lock
