import Strongbox.Proofs.Store.Agreement
import Strongbox.Proofs.Store.Listed
import Strongbox.Proofs.Store.Readable
import Strongbox.Proofs.Store.Tokens

/-!
# Store — ids in a column

A table keeps an id as a text: its digits in groups, with hyphens between.  The texts of ids sort by
their bytes as the ids do as numbers, so a table that sorts the text of its ids has the entries in
the order in which an indexed store holds them, and either store pages through them alike.

* `Row.Spells.id_eq`: the id that a row tells.
* `Table.pairwise_list_id`: what a table lists by id.
* `Table.PagesLike`: a table lists the entries of an indexed store by id, whatever window of the
  list is asked for; `Table.pagesLike_of_perm`: it does so if it has their rows.
* `idText_keeps`: all of it together.
-/

namespace Strongbox.Store

/-- The id that a row tells is the one whose text it has. -/
theorem Row.Spells.id_eq {r : Row} {e : Entry} {id : Uuid} (h : r.Spells e)
    (hcell : r.id = some id.text) : e.id = id := by
  obtain ⟨text, htext, he⟩ := h.id
  obtain rfl := Option.some.inj (hcell.symm.trans htext)
  exact Option.some.inj (he.symm.trans (Uuid.read?_text id))

namespace Table

variable {t : Table} {s : Indexed} {q : Query}

/-- **What a table lists by id** ascends, if its rows tell their ids by the usual texts. -/
theorem pairwise_list_id {es : List Entry} (ho : q.order = .id)
    (hrows : ∀ r ∈ t.rows, ∃ id : Uuid, r.id = some id.text) (h : t.list q = .ok es) :
    es.Pairwise fun a b => ¬ b.id < a.id := by
  refine pairwise_list (fun {r r' e e'} hr hr' he he' hin => ?_) h
  obtain ⟨id, hcell⟩ := hrows r hr
  obtain ⟨id', hcell'⟩ := hrows r' hr'
  rw [he.id_eq hcell, he'.id_eq hcell', ← Uuid.text_lt_iff]
  rw [ho, inOrder, hcell, hcell', cellBefore, Bool.not_eq_true', decide_eq_false_iff_not] at hin
  exact hin

/-! ### Pages -/

/-- **The table pages like the store.**  Whatever window of a list by id is asked for, the rows in
it are those of the entries that the store lists there, in the same order, and these ascend.  The
table gives them, cut to whole microseconds, if it has room for the instants of all of them.  A
window may reach past the bound of a table only where there are not that many rows. -/
def PagesLike (t : Table) (s : Indexed) : Prop :=
  ∀ q : Query, q.order = .id → Roomy q.offset q.limit t.rows.length →
    ∃ es, (s.answer (.list q)).1 = .ok es ∧ (es.Pairwise fun a b => a.id < b.id) ∧
      t.pick q = es.map Row.ofEntry ∧
      ∀ read, (t.answer (.list q)).1 = .ok read ↔
        (∀ e ∈ es, e.Fits) ∧ read = es.map Entry.floorMicros

/-- A table that mirrors a store pages like it. -/
theorem pagesLike_of_mirrors (h : Mirrors t s) : t.PagesLike s := by
  intro q ho hroom
  have hle : ∀ a ∈ s.rows, ∀ b ∈ s.rows,
      Indexed.inOrder q.order a b = inOrder q.order (Row.ofEntry a) (Row.ofEntry b) := by
    intro a _ b _
    rw [ho, Indexed.inOrder, inOrder, cellBefore_id]
  have hpick : t.pick q = (s.list q).map Row.ofEntry := h.pick_listed hle hroom
  have hascend : (s.list q).Pairwise fun a b => a.id < b.id := by
    rw [Indexed.list, ho]
    exact (h.sound.ascending.filter _).sublist (window_sublist _ _ _)
  refine ⟨s.list q, rfl, hascend, hpick, fun read => ?_⟩
  rw [answer, list_of_pick hpick]
  exact mapM_readBack_eq_ok

/-- **A table with the rows of a store's entries** pages like that store, in whatever order the rows
were put in and whether or not there is a schema. -/
theorem pagesLike_of_perm (hs : s.Sound) (hrows : t.rows.Perm (s.rows.map Row.ofEntry)) :
    t.PagesLike s :=
  -- no list looks at the schema
  pagesLike_of_mirrors (t := { t with enforced := true }) ⟨rfl, hs, hrows⟩

end Table

/-- **Columns of text keep ids and their order.**  An id is written as its 32 digits in groups of 8,
4, 4, 4 and 12 with hyphens between, and a row with that text is read back with that id.  Texts come
before one another by their bytes as the ids do as numbers, so a table that lists by id lists in the
order of the ids.  It pages like an indexed store that holds the same entries; so it does after any
calls, if the store was given the same calls. -/
theorem idText_keeps (a b : Uuid) :
    (∃ groups, a.text.toList = ['-'].intercalate groups ∧
      groups.map List.length = [8, 4, 4, 4, 12] ∧
      groups.flatten = Text.numeral Nat.digitChar 16 32 a.toNat) ∧
    (Bytes.ofText a.text < Bytes.ofText b.text ↔ a.toNat < b.toNat) ∧
    (Row.required 0 Uuid.read? (some a.text) = .ok a ∧
      ∀ (r : Row) (e : Entry), r.id = some a.text → r.read = .ok e → e.id = a) ∧
    (∀ (t : Table) (q : Query) (es : List Entry), q.order = .id →
      (∀ r ∈ t.rows, ∃ id : Uuid, r.id = some id.text) →
      (t.answer (.list q)).1 = .ok es → es.Pairwise fun e e' => ¬ e'.id < e.id) ∧
    (∀ (t : Table) (s : Indexed), s.Sound → t.rows.Perm (s.rows.map Row.ofEntry) →
      t.PagesLike s) ∧
    ∀ calls : List Call, ∃ t s, (Backing.table (.empty true)).after calls = .table t ∧
      (Backing.indexed .empty).after calls = .indexed s ∧
      t.rows.Perm (s.rows.map Row.ofEntry) ∧ t.PagesLike s := by
  refine ⟨a.exists_groups, ?_, ⟨Row.required_idText 0 a, fun r e hcell hread => ?_⟩,
    fun t q es ho hrows h => Table.pairwise_list_id ho hrows h,
    fun t s hs hrows => Table.pagesLike_of_perm hs hrows, fun calls => ?_⟩
  · rw [Bytes.ofText_lt_iff, Uuid.text_lt_iff, Uuid.lt_iff]
  · exact (Row.read_eq_ok_iff.1 hread).id_eq hcell
  · obtain ⟨t, s, ht, hs, h⟩ := mirrors_empty.after calls
    exact ⟨t, s, ht, hs, h.rows, Table.pagesLike_of_mirrors h⟩

/-- Two entries, the greater id first; a letter against a decimal digit decides. -/
def swappedEntries : List Entry :=
  [10, 9].map fun n => ⟨.ofNat n, n.repr, "locked", default, default, none, none⟩

/-- A table without a schema that has their rows, in that order. -/
def swappedTable : Table :=
  ⟨false, swappedEntries.map Row.ofEntry⟩

/-- An indexed store after they were put in, in that order. -/
def swappedStore : Indexed :=
  Indexed.empty.after (swappedEntries.map .create)

/-- The table has the entry with the lesser id on its first page of one and the other on the second,
and the two ascend in a list of both. -/
theorem idText_keeps_swappedEntries :
    swappedStore.Sound ∧ swappedTable.rows.Perm (swappedStore.rows.map Row.ofEntry) ∧
      (Uuid.ofNat 10).text = "00000000-0000-0000-0000-00000000000a" ∧
      Bytes.ofText (Uuid.ofNat 9).text < Bytes.ofText (Uuid.ofNat 10).text ∧
      (swappedTable.answer (.list (.page .all 0 1))).1 = .ok (swappedEntries.drop 1) ∧
      (swappedTable.answer (.list (.page .all 1 1))).1 = .ok (swappedEntries.take 1) ∧
      (swappedTable.answer (.list { filter := .all })).1 = .ok swappedEntries.reverse ∧
      swappedEntries.reverse.Pairwise fun e e' => ¬ e'.id < e.id := by
  have hsound : swappedStore.Sound := Indexed.sound_empty.after _
  have hrows : swappedTable.rows.Perm (swappedStore.rows.map Row.ofEntry) := by decide +kernel
  obtain ⟨-, hlt, -, hascend, hpages, -⟩ := idText_keeps (.ofNat 9) (.ofNat 10)
  have hepoch : (default : Instant).Fits := by decide
  have hfits : ∀ e ∈ swappedEntries, e.Fits := by
    intro e he
    obtain ⟨n, -, rfl⟩ := List.mem_map.1 he
    exact ⟨hepoch, hepoch, nofun, nofun⟩
  have hlist : ∀ {q : Query} {es : List Entry}, q.order = .id → es ⊆ swappedEntries →
      (swappedStore.answer (.list q)).1 = .ok es → es.map Entry.floorMicros = es →
      (swappedTable.answer (.list q)).1 = .ok es := by
    intro q es ho hsub hes hwhole
    obtain ⟨es', hes', -, -, hread⟩ :=
      hpages swappedTable swappedStore hsound hrows q ho (.inl (by decide))
    obtain rfl := Except.ok.inj (hes.symm.trans hes')
    exact (hread es).2 ⟨fun e he => hfits e (hsub he), hwhole.symm⟩
  have hboth : (swappedTable.answer (.list { filter := .all })).1 = .ok swappedEntries.reverse :=
    hlist rfl (List.reverse_subset.2 (List.Subset.refl _)) (by decide +kernel) (by decide +kernel)
  have hids : ∀ r ∈ swappedTable.rows, ∃ id : Uuid, r.id = some id.text := by
    intro r hr
    obtain ⟨e, -, rfl⟩ := List.mem_map.1 hr
    exact ⟨e.id, rfl⟩
  exact ⟨hsound, hrows, by decide +kernel, hlt.2 (by decide),
    hlist rfl (List.drop_subset 1 _) (by decide +kernel) (by decide +kernel),
    hlist rfl (List.take_subset 1 _) (by decide +kernel) (by decide +kernel),
    hboth, hascend _ _ _ rfl hids hboth⟩

end Strongbox.Store
