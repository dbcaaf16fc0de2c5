import Strongbox.Json

/-!
# Vault — modes of purging

Expired entries are purged softly, which hides them, or hard, which erases them and takes hidden
ones too.
-/

namespace Strongbox

/-- How expired entries are purged. -/
inductive PurgeMode where
  | soft
  | hard
  deriving DecidableEq

namespace PurgeMode

/-- The name of the mode. -/
def name : PurgeMode → String
  | soft => "soft"
  | hard => "hard"

/-- The mode with a name. -/
def ofName? (name : String) : Option PurgeMode :=
  [soft, hard].find? (·.name == name)

/-- The mode that a document names. -/
def ofJson? (j : Json) : Option PurgeMode :=
  j.caseName?.bind ofName?

end PurgeMode

end Strongbox
