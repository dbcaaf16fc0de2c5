import Strongbox.Entry
import Strongbox.Store.Error

/-!
# Store — queries and calls

A store answers seven calls.  A filter picks entries by id, by token, or by membership in a set of
either, and leaves hidden entries out unless it is told to take them.  A query lists the picked
entries in an order and cuts a window out of the list.

* `Call.Answer`: the type of a call's answer when the call does not fail.
-/

namespace Strongbox

/-- A condition on entries; a missing part holds of every entry. -/
structure Filter where
  id : Option Uuid := none
  ids : Option (List Uuid) := none
  token : Option String := none
  tokens : Option (List String) := none
  withHidden : Bool := false
  deriving DecidableEq

namespace Filter

/-- Every active entry. -/
def active : Filter := {}

/-- Every entry. -/
def all : Filter := { withHidden := true }

/-- The condition holds of the entry. -/
def admits (f : Filter) (e : Entry) : Bool :=
  (f.withHidden || !e.isHidden)
    && f.id.all (e.id == ·)
    && f.ids.all (·.contains e.id)
    && f.token.all (e.token == ·)
    && f.tokens.all (·.contains e.token)

end Filter

/-- What a list is sorted by; the id decides between entries that are equal in it. -/
inductive Order where
  | id
  | created
  | token
  deriving DecidableEq

/-- Which entries to list, in what order, and which window of the list to keep. -/
structure Query where
  filter : Filter
  order : Order := .id
  limit : Option Nat := none
  offset : Nat := 0
  deriving DecidableEq

/-- A page of the entries that a filter admits, by id. -/
def Query.page (filter : Filter) (offset limit : Nat) : Query :=
  { filter, limit := some limit, offset }

namespace Store

/-- A call to a store. -/
inductive Call where
  | create (e : Entry)
  | update (e : Entry) (fields : List Field)
  | erase (id : Uuid)
  | findId (id : Uuid)
  | findToken (token : String)
  | list (query : Query)
  | count (filter : Filter)
  deriving DecidableEq

/-- The type of a call's answer. -/
@[reducible] def Call.Answer : Call → Type
  | create _ | update _ _ | erase _ => Unit
  | findId _ | findToken _ => Option Entry
  | list _ => List Entry
  | count _ => Nat

/-- A call's answer, or why there is none. -/
abbrev Call.Reply (c : Call) : Type :=
  Except StoreError c.Answer

/-- The window of a list that starts after `offset` items and has at most `limit`. -/
def window {α : Type} (offset : Nat) (limit : Option Nat) (xs : List α) : List α :=
  match limit with
  | some n => (xs.drop offset).take n
  | none => xs.drop offset

end Store

end Strongbox
