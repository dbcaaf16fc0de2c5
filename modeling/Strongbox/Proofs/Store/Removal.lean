import Strongbox.Proofs.Store.Holds
import Strongbox.Vault.Bulk

/-!
# Store — entries hidden and taken out

What a purge makes of a store: `Backing.purged` is the store with the entries of some ids hidden at
an instant, or without them.  Hidden or gone, an entry leaves the list that the purge pages through.

* `Backing.Lists.listing_purged`: what is still listed.
* `Backing.Lists.purged`: the entries of the store, if it reads back the instant.
* `Backing.Lists.answer_hide`, `Backing.Lists.answer_erase`: one more entry is hidden or taken out.
-/

namespace Strongbox

/-! ### Hiding and taking out by ids -/

/-- The entry hidden at an instant. -/
def Entry.hide (now : Instant) (e : Entry) : Entry :=
  { e with hidden := some now, updated := now }

/-- The entry hidden at an instant if it has one of some ids. -/
def Entry.hideIn (now : Instant) (ids : List Uuid) (e : Entry) : Entry :=
  if ids.contains e.id then e.hide now else e

@[simp] theorem Entry.id_hideIn (now : Instant) (ids : List Uuid) (e : Entry) :
    (e.hideIn now ids).id = e.id := by
  simp only [hideIn]
  split <;> rfl

@[simp] theorem Entry.token_hideIn (now : Instant) (ids : List Uuid) (e : Entry) :
    (e.hideIn now ids).token = e.token := by
  simp only [hideIn]
  split <;> rfl

theorem contains_concat (ids : List Uuid) (id id' : Uuid) :
    (ids ++ [id]).contains id' = (ids.contains id' || id' == id) := by
  rw [Bool.eq_iff_iff]
  simp

/-- Hidden by one more id. -/
theorem Entry.hideIn_concat (now : Instant) (ids : List Uuid) (id : Uuid) (e : Entry) :
    e.hideIn now (ids ++ [id]) = if e.id = id then e.hide now else e.hideIn now ids := by
  simp only [hideIn, contains_concat, Bool.or_eq_true, beq_iff_eq]
  by_cases he : e.id = id <;> simp [he]

/-- An entry that is hidden already is hidden again. -/
theorem Entry.setFields_hideIn (now : Instant) (ids : List Uuid) (source e : Entry) :
    (e.hideIn now ids).setFields (source.hide now) [.hidden, .updated] = e.hide now := by
  simp only [hideIn]
  split <;> rfl

namespace Store.Row

/-- The row of an entry hidden at an instant. -/
def hide (now : Instant) (r : Row) : Row :=
  { r with hidden := some now.columnText, updated := some now.columnText }

/-- The row is that of an entry with one of some ids. -/
def within (ids : List Uuid) (r : Row) : Bool :=
  r.id.any (ids.map Uuid.text).contains

/-- The row of an entry hidden at an instant if it has one of some ids. -/
def hideIn (now : Instant) (ids : List Uuid) (r : Row) : Row :=
  if r.within ids then r.hide now else r

@[simp] theorem id_hideIn (now : Instant) (ids : List Uuid) (r : Row) :
    (r.hideIn now ids).id = r.id := by
  simp only [hideIn]
  split <;> rfl

theorem within_concat (ids : List Uuid) (id : Uuid) (r : Row) :
    r.within (ids ++ [id]) = (r.within ids || r.id == some id.text) := by
  rw [Bool.eq_iff_iff]
  cases h : r.id <;> simp [within, h]

/-- Hidden by one more id. -/
theorem hideIn_concat (now : Instant) (ids : List Uuid) (id : Uuid) (r : Row) :
    r.hideIn now (ids ++ [id]) = if r.id = some id.text then r.hide now else r.hideIn now ids := by
  simp only [hideIn, within_concat, Bool.or_eq_true, beq_iff_eq]
  by_cases hr : r.id = some id.text <;> simp [hr]

/-- A row that is hidden already is hidden again. -/
theorem setFields_hideIn (now : Instant) (ids : List Uuid) (source : Entry) (r : Row) :
    (r.hideIn now ids).setFields (source.hide now) [.hidden, .updated] = r.hide now := by
  simp only [hideIn]
  split <;> rfl

theorem Holds.within {r : Row} {e : Entry} (h : r.Holds e) (ids : List Uuid) :
    r.within ids = ids.contains e.id := by
  rw [Row.within, h.2, Option.any_some, Bool.eq_iff_iff, List.contains_iff_mem,
    List.contains_iff_mem]
  exact List.mem_map_of_injective (fun _ _ => Uuid.text_inj)

end Store.Row

namespace PurgeMode

/-- A purge still has the entry in its list after it has purged those of some ids. -/
def lists (mode : PurgeMode) (ids : List Uuid) (e : Entry) : Bool :=
  (Vault.purgeFilter mode).admits e && !ids.contains e.id

theorem lists_iff {mode : PurgeMode} {ids : List Uuid} {e : Entry} :
    mode.lists ids e = true ↔ (Vault.purgeFilter mode).admits e = true ∧ e.id ∉ ids := by
  simp [lists]

theorem filter_lists_append (mode : PurgeMode) (ids ids' : List Uuid) (es : List Entry) :
    es.filter (mode.lists (ids ++ ids'))
      = (es.filter (mode.lists ids)).filter fun e => !ids'.contains e.id := by
  rw [List.filter_filter]
  refine List.filter_congr fun e _ => ?_
  rw [lists, lists, List.contains_append, Bool.not_or, ← Bool.and_assoc, Bool.and_comm]

/-- The entries after those of some ids were purged at an instant. -/
def leaves (mode : PurgeMode) (now : Instant) (ids : List Uuid) (es : List Entry) : List Entry :=
  match mode with
  | soft => es.map (·.hideIn now ids)
  | hard => es.filter fun e => !ids.contains e.id

end PurgeMode

namespace Backing

/-- The store with the entries of some ids hidden at an instant. -/
def hideAll (now : Instant) (ids : List Uuid) : Backing → Backing
  | indexed s => indexed { s with rows := s.rows.map (·.hideIn now ids) }
  | table t => table { t with rows := t.rows.map (·.hideIn now ids) }

/-- The store without the entries of some ids. -/
def eraseAll (ids : List Uuid) : Backing → Backing
  | indexed s =>
    indexed ⟨s.rows.filter fun e => !ids.contains e.id, s.index.filter fun k => !ids.contains k.2⟩
  | table t => table { t with rows := t.rows.filter fun r => !r.within ids }

/-- The store with the entries of some ids purged. -/
def purged (mode : PurgeMode) (now : Instant) (ids : List Uuid) (b : Backing) : Backing :=
  match mode with
  | .soft => b.hideAll now ids
  | .hard => b.eraseAll ids

/-- Where no entry is purged, nothing happens. -/
theorem purged_nil (mode : PurgeMode) (now : Instant) (b : Backing) : b.purged mode now [] = b := by
  have hrow : ∀ r : Store.Row, r.within [] = false := fun r => by
    cases h : r.id <;> simp [Store.Row.within, h]
  cases mode <;> cases b <;>
    simp [purged, hideAll, eraseAll, Entry.hideIn, Store.Row.hideIn, hrow]

/-! ### What is still listed -/

/-- Items rewritten so that they are not picked any more are left out. -/
theorem filter_map_eq {α : Type} {xs : List α} {g : α → α} {a p : α → Bool}
    (h : ∀ x, a (g x) = p x) (hg : ∀ x, p x = true → g x = x) :
    (xs.map g).filter a = xs.filter p := by
  have hap : a ∘ g = p := funext h
  rw [List.filter_map, hap]
  refine (List.map_congr_left fun x hx => ?_).trans (List.map_id _)
  exact hg x (List.mem_filter.1 hx).2

namespace Lists

variable {b : Backing} {es : List Entry}

/-- The rows of a table that are left of its list. -/
theorem listing_table {t : Store.Table} {rows : List Store.Row} {mode : PurgeMode}
    {ids : List Uuid} (h : t.Lists es)
    (hrows : rows.filter (Store.Table.admits (Vault.purgeFilter mode)) = t.rows.filter fun r =>
      Store.Table.admits (Vault.purgeFilter mode) r && !r.within ids) :
    (table { t with rows }).Listing (Vault.purgeFilter mode) (es.filter (mode.lists ids)) := by
  have hleft := h.filter
    (p := fun r => Store.Table.admits (Vault.purgeFilter mode) r && !r.within ids)
    (q := mode.lists ids) fun hr => by rw [hr.admits, hr.within, PurgeMode.lists]
  rwa [← hrows] at hleft

/-- **What is left of the list** that a purge pages through. -/
theorem listing_purged (h : b.Lists es) (mode : PurgeMode) (now : Instant) (ids : List Uuid) :
    (b.purged mode now ids).Listing (Vault.purgeFilter mode)
      (es.filter (mode.lists ids)) := by
  cases mode with
  | soft =>
      -- whoever is hidden is not admitted any more
      cases b with
      | indexed s =>
          obtain ⟨-, rfl⟩ := h
          refine filter_map_eq (fun e => ?_) fun e he => ?_
          · by_cases hc : e.id ∈ ids
            · simp [PurgeMode.lists, hc, Entry.hideIn, Entry.hide, Filter.admits,
                Vault.purgeFilter, Filter.active, Entry.isHidden]
            · simp [PurgeMode.lists, hc, Entry.hideIn]
          · have hc : e.id ∉ ids := by simpa using (Bool.and_eq_true_iff.1 he).2
            simp [hc, Entry.hideIn]
      | table t =>
          refine listing_table h (filter_map_eq (fun r => ?_) fun r hr => ?_)
          · cases hc : r.within ids
            · simp [hc, Store.Row.hideIn]
            · simp [hc, Store.Row.hideIn, Store.Table.admits, Vault.purgeFilter, Filter.active,
                Store.Row.hide]
          · have hc : r.within ids = false := by simpa using (Bool.and_eq_true_iff.1 hr).2
            simp [hc, Store.Row.hideIn]
  | hard =>
      cases b with
      | indexed s =>
          obtain ⟨-, rfl⟩ := h
          exact List.filter_filter
      | table t => exact listing_table h List.filter_filter

/-- **The entries after a purge**, if the store reads back the instant. -/
theorem purged (h : b.Lists es) {mode : PurgeMode} {now : Instant}
    (ht : mode = .soft → b.Takes now) (ids : List Uuid) :
    (b.purged mode now ids).Lists (mode.leaves (b.keep now) ids es) := by
  cases mode with
  | soft =>
      cases b with
      | indexed s =>
          obtain ⟨hs, rfl⟩ := h
          exact ⟨hs.map (Entry.id_hideIn now ids) (Entry.token_hideIn now ids), rfl⟩
      | table t =>
          refine Store.Table.Lists.map h (Store.Row.id_hideIn now ids)
            (Entry.id_hideIn now.floorMicros ids) fun {r e} hr => ?_
          rw [Store.Row.hideIn, Entry.hideIn, hr.within]
          split
          · have hnow : now.Fits := ht rfl
            have hfit : ∀ f ∈ [Field.hidden, .updated], (e.hide now).FieldFits f := by
              simp [Entry.FieldFits, Entry.hide, hnow]
            exact hr.setFields hfit
          · exact hr
  | hard =>
      cases b with
      | indexed s =>
          obtain ⟨hs, rfl⟩ := h
          exact ⟨hs.filter fun id => !ids.contains id, rfl⟩
      | table t =>
          exact Store.Table.Lists.filter h fun hr => by rw [hr.within]

/-! ### One more entry -/

/-- **One more entry is hidden.** -/
theorem answer_hide (h : b.Lists es) (now : Instant) (ids : List Uuid) {e : Entry} (he : e ∈ es) :
    (b.hideAll now ids).answer (.update (e.hide now) [.hidden, .updated])
      = (.ok (), b.hideAll now (ids ++ [e.id])) := by
  cases b with
  | indexed s =>
      obtain ⟨hs, rfl⟩ := h
      have hu : Store.Indexed.update { s with rows := s.rows.map (·.hideIn now ids) } (e.hide now)
          [.hidden, .updated] = _ :=
        Store.Indexed.update_eq (hs.map (Entry.id_hideIn now ids) (Entry.token_hideIn now ids))
          (List.mem_map_of_mem he) (Entry.id_hideIn now ids e)
      have hrow : ∀ r : Entry, Store.Indexed.rewrite (e.hide now) [.hidden, .updated]
          (r.hideIn now ids) = r.hideIn now (ids ++ [e.id]) := by
        intro r
        rw [Store.Indexed.rewrite, Entry.id_hideIn, Entry.setFields_hideIn, Entry.hideIn_concat]
        rfl
      simp only [hideAll, answer, Store.Indexed.answer, hu, List.map_map, Function.comp_def, hrow]
  | table t =>
      have hany : (t.rows.map (·.hideIn now ids)).any (·.id == some e.id.text) = true := by
        simp only [List.any_map, Function.comp_def, Store.Row.id_hideIn]
        exact Store.Table.Lists.any_id h he
      have hid : (e.hide now).id = e.id := rfl
      simp only [hideAll, answer, Store.Table.answer, Store.Table.update, hid, hany,
        List.isEmpty_cons, Bool.false_eq_true, if_false, if_true, List.map_map, Function.comp_def,
        Store.Row.id_hideIn, Store.Row.setFields_hideIn, Store.Row.hideIn_concat]

/-- **One more entry is taken out.** -/
theorem answer_erase (h : b.Lists es) {ids : List Uuid} {e : Entry} (he : e ∈ es)
    (hid : e.id ∉ ids) :
    (b.eraseAll ids).answer (.erase e.id) = (.ok (), b.eraseAll (ids ++ [e.id])) := by
  cases b with
  | indexed s =>
      obtain ⟨hs, rfl⟩ := h
      have hs' := hs.filter fun id => !ids.contains id
      have he' : e ∈ s.rows.filter fun e => !ids.contains e.id :=
        List.mem_filter.2 ⟨he, by simpa using hid⟩
      have hu : Store.Indexed.erase ⟨_, _⟩ e.id = _ := Store.Indexed.erase_eq hs' he'
      have hkeep : ∀ id, (id != e.id && !ids.contains id) = !(ids ++ [e.id]).contains id := by
        intro id
        rw [contains_concat, Bool.not_or, Bool.and_comm]
        rfl
      simp only [eraseAll, answer, Store.Indexed.answer, hu, hs'.index_erase he',
        List.filter_filter, hkeep]
  | table t =>
      have he' : e ∈ es.filter fun e => !ids.contains e.id :=
        List.mem_filter.2 ⟨he, by simpa using hid⟩
      have hl := Store.Table.Lists.filter h (p := fun r => !r.within ids)
        (q := fun e => !ids.contains e.id) fun hr => by rw [hr.within]
      have hkeep : ∀ r : Store.Row, (r.id != some e.id.text && !r.within ids)
          = !r.within (ids ++ [e.id]) := by
        intro r
        rw [Store.Row.within_concat, Bool.not_or, Bool.and_comm]
        rfl
      simp only [eraseAll, answer, Store.Table.answer, Store.Table.erase, hl.any_id he', if_true,
        List.filter_filter, hkeep]

end Lists

end Backing

end Strongbox
