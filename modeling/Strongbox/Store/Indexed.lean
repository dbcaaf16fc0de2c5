import Strongbox.Store.Query

/-!
# Store — indexed entries

A store that holds entries in ascending order of their ids, and beside them an index from tokens to
ids.

* `Indexed.answer`: the answer to a call, and the store after it.  A call that fails leaves the
  store as it was.
-/

namespace Strongbox.Store

/-- Entries by id, and the id of each token. -/
structure Indexed where
  rows : List Entry
  index : List (String × Uuid)
  deriving DecidableEq

namespace Indexed

/-- The store that holds nothing. -/
def empty : Indexed := ⟨[], []⟩

/-- The row with an id. -/
def row? (s : Indexed) (id : Uuid) : Option Entry :=
  s.rows.find? (·.id == id)

/-- The id of the row with a token. -/
def idOf? (s : Indexed) (token : String) : Option Uuid :=
  (s.index.find? (·.1 == token)).map (·.2)

/-- The rows with one more in its place. -/
def insertRow (e : Entry) : List Entry → List Entry
  | [] => [e]
  | r :: rows => if e.id < r.id then e :: r :: rows else r :: insertRow e rows

/-- A new entry, unless its token or its id is taken. -/
def create (s : Indexed) (e : Entry) : Except StoreError Unit × Indexed :=
  if (s.idOf? e.token).isSome ∨ (s.row? e.id).isSome then (.error (.duplicate e.token), s)
  else (.ok (), ⟨insertRow e s.rows, (e.token, e.id) :: s.index⟩)

/-- Some fields of the entry with the id of `e` taken from `e`. -/
def update (s : Indexed) (e : Entry) (fields : List Field) : Except StoreError Unit × Indexed :=
  if (s.row? e.id).isSome then
    (.ok (), { s with rows := s.rows.map fun r => if r.id = e.id then r.setFields e fields else r })
  else (.error (.missing e.id), s)

/-- The entry with an id taken out, and its token with it. -/
def erase (s : Indexed) (id : Uuid) : Except StoreError Unit × Indexed :=
  match s.row? id with
  | some r => (.ok (), ⟨s.rows.filter (·.id != id), s.index.filter (·.1 != r.token)⟩)
  | none => (.error (.missing id), s)

/-- The entry with a token. -/
def findToken (s : Indexed) (token : String) : Option Entry :=
  (s.idOf? token).bind s.row?

/-- The first entry does not come after the second in an order. -/
def inOrder (order : Order) (a b : Entry) : Bool :=
  match order with
  | .id => !decide (b.id < a.id)
  | .created =>
    decide (a.created < b.created) || (!decide (b.created < a.created) && !decide (b.id < a.id))
  | .token =>
    decide (a.token < b.token) || (!decide (b.token < a.token) && !decide (b.id < a.id))

/-- The admitted entries in an order. -/
def sorted (s : Indexed) (filter : Filter) (order : Order) : List Entry :=
  let admitted := s.rows.filter filter.admits
  match order with
  | .id => admitted
  | order => admitted.mergeSort (inOrder order)

/-- The entries that a query asks for. -/
def list (s : Indexed) (q : Query) : List Entry :=
  window q.offset q.limit (s.sorted q.filter q.order)

/-- The number of admitted entries. -/
def count (s : Indexed) (filter : Filter) : Nat :=
  s.rows.countP filter.admits

/-- The answer to a call, and the store after it. -/
def answer (s : Indexed) : (c : Call) → c.Reply × Indexed
  | .create e => s.create e
  | .update e fields => s.update e fields
  | .erase id => s.erase id
  | .findId id => (.ok (s.row? id), s)
  | .findToken token => (.ok (s.findToken token), s)
  | .list q => (.ok (s.list q), s)
  | .count filter => (.ok (s.count filter), s)

end Indexed

end Strongbox.Store
