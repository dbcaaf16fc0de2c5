import Strongbox.Store.Query
import Strongbox.Time.Strict

/-!
# Store — rows of text

An entry as seven cells of text, of which a cell may be empty.  An instant is written to the
microsecond with all six digits, so that texts sort like instants as long as years have four
digits.

* `Row.read`: the entry that a row holds, or the first column that does not read.
-/

namespace Strongbox

/-- The instant to the microsecond, always with six digits. -/
def Instant.columnText (t : Instant) : String :=
  String.ofList
    (dateText t.date ++ 'T' :: clockText t.clock ++ '.' :: Text.decimal 6 (t.clock.nano / 1000)
      ++ ['Z'])

namespace Store

/-- A cell: a text, or nothing. -/
abbrev Cell : Type := Option String

/-- A row of seven cells. -/
structure Row where
  id : Cell
  token : Cell
  locked : Cell
  created : Cell
  updated : Cell
  expires : Cell
  hidden : Cell
  deriving DecidableEq

namespace Row

/-- The row of an entry. -/
def ofEntry (e : Entry) : Row where
  id := some e.id.text
  token := some e.token
  locked := some e.locked
  created := some e.created.columnText
  updated := some e.updated.columnText
  expires := e.expires.map Instant.columnText
  hidden := e.hidden.map Instant.columnText

/-- The row with the cell of one field taken from an entry. -/
def setField (r : Row) (e : Entry) : Field → Row
  | .locked => { r with locked := some e.locked }
  | .updated => { r with updated := some e.updated.columnText }
  | .expires => { r with expires := e.expires.map Instant.columnText }
  | .hidden => { r with hidden := e.hidden.map Instant.columnText }

/-- The row with the cells of some fields taken from an entry. -/
def setFields (r : Row) (e : Entry) (fields : List Field) : Row :=
  fields.foldl (fun r f => r.setField e f) r

/-- The value of a cell that must hold one, in the column numbered `column`. -/
def required {α : Type} (column : Nat) (read : String → Option α) (c : Cell) : Except Nat α :=
  match c.bind read with
  | some a => .ok a
  | none => .error column

/-- The value of a cell that may be empty, in the column numbered `column`. -/
def optional {α : Type} (column : Nat) (read : String → Option α) : Cell → Except Nat (Option α)
  | none => .ok none
  | some s =>
    match read s with
    | some a => .ok (some a)
    | none => .error column

/-- The entry that the row holds, or the first column that does not read. -/
def read (r : Row) : Except Nat Entry := do
  return {
    id := ← required 0 Uuid.read? r.id
    token := ← required 1 some r.token
    locked := ← required 2 some r.locked
    created := ← required 3 Instant.read? r.created
    updated := ← required 4 Instant.read? r.updated
    expires := ← optional 5 Instant.read? r.expires
    hidden := ← optional 6 Instant.read? r.hidden }

end Row

end Store

end Strongbox
