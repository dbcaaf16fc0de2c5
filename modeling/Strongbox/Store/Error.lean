import Strongbox.Text.Quoted
import Strongbox.Uuid

/-!
# Store — errors

Why a store did not answer.  Two causes have no words of their own: a row that does not read, which
is known by its column, and a failing file.
-/

namespace Strongbox

/-- Why a store did not answer. -/
inductive StoreError where
  | unreadable (column : Option Nat)
  | io
  | duplicate (token : String)
  | missing (id : Uuid)
  | poisoned
  | corrupt (detail : String)
  deriving DecidableEq

/-- The cause in words, if it has any. -/
def StoreError.message? : StoreError → Option String
  | unreadable _ => none
  | io => none
  | duplicate token => some s!"a record with token {Text.quoted token} already exists"
  | missing id => some s!"no record with id {id.text}"
  | poisoned => some "repository lock poisoned"
  | corrupt detail => some s!"corrupt row: {detail}"

end Strongbox
