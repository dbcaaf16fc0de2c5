import Strongbox.Store.Row

/-!
# Store — a table of text

A store that holds rows of text in the order in which they were put in.  Rows are picked and sorted
by their text, and only the rows of an answer are read.  A table with a schema keeps ids and tokens
apart and its required cells filled; a table without one takes any row.

* `Table.answer`: the answer to a call, and the table after it.
* `Table.insertRow?`: a row put in directly.
-/

namespace Strongbox.Store

/-- Rows in the order of their insertion; `enforced` if the table has a schema. -/
structure Table where
  enforced : Bool
  rows : List Row
  deriving DecidableEq

namespace Table

/-- The table that holds nothing. -/
def empty (enforced : Bool) : Table := ⟨enforced, []⟩

/-- Two cells hold the same text; an empty cell holds none. -/
def sameText (a b : Cell) : Bool :=
  a.any fun s => b == some s

/-- The row may be added to a table with a schema. -/
def fits (rows : List Row) (r : Row) : Bool :=
  r.token.isSome && r.locked.isSome && r.created.isSome && r.updated.isSome
    && rows.all fun old => !sameText old.id r.id && !sameText old.token r.token

/-- The table with one more row, unless its schema forbids it. -/
def insertRow? (t : Table) (r : Row) : Option Table :=
  if t.enforced && !fits t.rows r then none else some { t with rows := t.rows ++ [r] }

/-- A new entry, unless the schema forbids it. -/
def create (t : Table) (e : Entry) : Except StoreError Unit × Table :=
  match t.insertRow? (Row.ofEntry e) with
  | some t' => (.ok (), t')
  | none => (.error (.duplicate e.token), t)

/-- Some cells of the rows with the id of `e` taken from `e`. -/
def update (t : Table) (e : Entry) (fields : List Field) : Except StoreError Unit × Table :=
  if fields.isEmpty then (.ok (), t)
  else if t.rows.any (·.id == some e.id.text) then
    (.ok (), { t with
      rows := t.rows.map fun r => if r.id = some e.id.text then r.setFields e fields else r })
  else (.error (.missing e.id), t)

/-- The rows with an id taken out. -/
def erase (t : Table) (id : Uuid) : Except StoreError Unit × Table :=
  if t.rows.any (·.id == some id.text) then
    (.ok (), { t with rows := t.rows.filter (·.id != some id.text) })
  else (.error (.missing id), t)

/-- The entry of a row; a row that does not read is known by its first bad column. -/
def readRow (r : Row) : Except StoreError Entry :=
  r.read.mapError fun column => .unreadable (some column)

/-- The entry of the first row that a condition picks. -/
def find (t : Table) (picks : Row → Bool) : Except StoreError (Option Entry) :=
  match t.rows.find? picks with
  | some r => (readRow r).map some
  | none => .ok none

/-- The condition of a filter on the text of a row; an empty cell equals no text. -/
def admits (f : Filter) (r : Row) : Bool :=
  (f.withHidden || r.hidden.isNone)
    && f.id.all (fun id => r.id == some id.text)
    && f.ids.all (fun ids => r.id.any (ids.map Uuid.text).contains)
    && f.token.all (fun token => r.token == some token)
    && f.tokens.all (fun tokens => r.token.any tokens.contains)

/-- The first cell comes before the second: empty cells first, then by text. -/
def cellBefore : Cell → Cell → Bool
  | none, b => b.isSome
  | some _, none => false
  | some a, some b => decide (a < b)

/-- The first row does not come after the second in an order. -/
def inOrder (order : Order) (a b : Row) : Bool :=
  match order with
  | .id => !cellBefore b.id a.id
  | .created =>
    cellBefore a.created b.created
      || (!cellBefore b.created a.created && !cellBefore b.id a.id)
  | .token =>
    cellBefore a.token b.token || (!cellBefore b.token a.token && !cellBefore b.id a.id)

/-- The greatest limit and offset that a table takes. -/
def greatestBound : Nat := (1 <<< 63) - 1

/-- The rows that a query asks for. -/
def pick (t : Table) (q : Query) : List Row :=
  window (min q.offset greatestBound) (q.limit.map (min · greatestBound))
    ((t.rows.filter (admits q.filter)).mergeSort (inOrder q.order))

/-- The entries that a query asks for. -/
def list (t : Table) (q : Query) : Except StoreError (List Entry) :=
  (t.pick q).mapM readRow

/-- The answer to a call, and the table after it. -/
def answer (t : Table) : (c : Call) → c.Reply × Table
  | .create e => t.create e
  | .update e fields => t.update e fields
  | .erase id => t.erase id
  | .findId id => (t.find (·.id == some id.text), t)
  | .findToken token => (t.find (·.token == some token), t)
  | .list q => (t.list q, t)
  | .count filter => (.ok (t.rows.countP (admits filter)), t)

end Table

end Strongbox.Store
