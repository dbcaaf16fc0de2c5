import Strongbox.Proofs.Store.Mirror

/-!
# Store — what a table reads back

A table with a schema takes every entry whose id and token are free, whatever its instants.  It
reads back those whose years have four digits, cut to whole microseconds.  An entry with another
year in it is there but does not read: it is not found by its id or its token, and no list in which
it has a place is given.

* `Entry.readBack_eq_ok`: what is read back of one entry.
* `Indexed.picked`: the entries of a list, in the order of their rows.
* `reads_after`: what is read from a table after any calls.
* `far_unreadable`: an entry of the year 10000 is taken and then blocks every list.
-/

namespace Strongbox

/-- An entry is read back if the columns have room for its instants, cut to whole microseconds. -/
theorem Entry.readBack_eq_ok {e r : Entry} : e.readBack = .ok r ↔ e.Fits ∧ r = e.floorMicros := by
  rw [readBack]
  cases h : e.unfit? with
  | none =>
      have hfits := unfit?_eq_none.1 h
      simp only [Except.ok.injEq, hfits, true_and, eq_comm]
  | some column =>
      have hfits : ¬ e.Fits := fun hf => by
        rw [unfit?_eq_none.2 hf] at h
        cases h
      simp only [reduceCtorEq, hfits, false_and]

namespace Store

/-- Entries are read back together if each of them is. -/
theorem mapM_readBack_eq_ok {es rs : List Entry} :
    es.mapM Entry.readBack = .ok rs ↔
      (∀ e ∈ es, e.Fits) ∧ rs = es.map Entry.floorMicros := by
  simp only [mapM_eq_ok_iff, Entry.readBack_eq_ok, List.forall₂_and_left]
  refine and_congr_right fun _ => ?_
  rw [eq_comm, ← List.forall₂_eq_eq_eq, List.forall₂_map_left_iff]
  exact ⟨fun h => h.imp fun _ _ => Eq.symm, fun h => h.imp fun _ _ => Eq.symm⟩

/-- The entries that a query asks for, in the order of their rows. -/
def Indexed.picked (s : Indexed) (q : Query) : List Entry :=
  window (min q.offset Table.greatestBound) (q.limit.map (min · Table.greatestBound))
    ((s.rows.filter q.filter.admits).mergeSort fun a b =>
      Table.inOrder q.order (Row.ofEntry a) (Row.ofEntry b))

/-- **What is read from a table after any calls.**  The entries written are those of an indexed
store after the same calls.  What is looked for is found and read back if the columns have room for
its instants, and otherwise the first column without room is the error; a list is given if all
entries in it are read back. -/
theorem reads_after (calls : List Call) :
    ∃ t s, (Backing.table (.empty true)).after calls = .table t ∧
      (Backing.indexed .empty).after calls = .indexed s ∧
      (∀ id, (t.answer (.findId id)).1 = readBack? (s.row? id)) ∧
      (∀ token, (t.answer (.findToken token)).1 = readBack? (s.findToken token)) ∧
      (∀ q, (t.answer (.list q)).1 = (s.picked q).mapM Entry.readBack) ∧
      ∀ q es, (t.answer (.list q)).1 = .ok es ↔
        (∀ e ∈ s.picked q, e.Fits) ∧ es = (s.picked q).map Entry.floorMicros := by
  obtain ⟨t, s, ht, hs, h⟩ := mirrors_empty.after calls
  have hlist : ∀ q, (t.answer (.list q)).1 = (s.picked q).mapM Entry.readBack := fun q =>
    h.list q fun _ _ _ _ => rfl
  refine ⟨t, s, ht, hs, h.findId, h.findToken, hlist, fun q es => ?_⟩
  rw [hlist]
  exact mapM_readBack_eq_ok

/-- An entry that expires in the year 10000. -/
def farEntry : Entry :=
  ⟨.ofNat 1, "token", "locked", default, default, some (.ofSecond 253402302600), none⟩

/-- The table after the entry was written to it. -/
def farStore : Backing :=
  (Backing.table (.empty true)).after [.create farEntry]

/-- The entry is taken, and nothing that would show it is read after that. -/
theorem far_unreadable :
    ((Backing.table (.empty true)).answer (.create farEntry)).1 = .ok () ∧
      (farStore.answer (.findId farEntry.id)).1 = .error (.unreadable (some 5)) ∧
      (farStore.answer (.findToken farEntry.token)).1 = .error (.unreadable (some 5)) ∧
      (farStore.answer (.list { filter := .all })).1 = .error (.unreadable (some 5)) := by
  decide +kernel

end Store

end Strongbox
