import Strongbox.Proofs.Store.Table
import Strongbox.World

/-!
# Store — the entries of a store of either kind

`Backing.Lists` says which entries a store lists, by id, whichever kind it is, `Backing.Listing`
which it lists under one filter, and `Backing.Holds` that their tokens are apart too.  Work on many
entries uses the store through the facts below and through nothing else.

* `Backing.Lists.count`, `Backing.Lists.list`: what a filter admits is counted and listed, whole or
  by pages.
* `Backing.Lists.update`, `Backing.Lists.erase`: a write changes its one entry.
* `Backing.Holds.find`: what is found under a token is the entry that has it.
* `Backing.Holds.relocked`: an update of locked text and time in particular.
-/

namespace Strongbox.Backing

/-- What the store keeps of an instant: a table keeps whole microseconds. -/
def keep : Backing → Instant → Instant
  | indexed _, t => t
  | table _, t => t.floorMicros

/-- The store reads back what it keeps of the instant.  The text of a table has room for the years
0 to 9999. -/
def Takes : Backing → Instant → Prop
  | indexed _, _ => True
  | table _, t => 0 ≤ t.date.year ∧ t.date.year ≤ 9999

/-- What the store keeps of an entry. -/
def keepEntry : Backing → Entry → Entry
  | indexed _, e => e
  | table _, e => e.floorMicros

@[simp] theorem token_keepEntry {b : Backing} {e : Entry} : (b.keepEntry e).token = e.token := by
  cases b <;> rfl

@[simp] theorem id_keepEntry {b : Backing} {e : Entry} : (b.keepEntry e).id = e.id := by
  cases b <;> rfl

@[simp] theorem locked_keepEntry {b : Backing} {e : Entry} :
    (b.keepEntry e).locked = e.locked := by
  cases b <;> rfl

@[simp] theorem isHidden_keepEntry {b : Backing} {e : Entry} :
    (b.keepEntry e).isHidden = e.isHidden := by
  cases b with
  | indexed => rfl
  | table => exact Option.isSome_map

/-- The store reads back what an update writes to a field. -/
def TakesField : Backing → Entry → Field → Prop
  | indexed _, _, _ => True
  | table _, e, f => e.FieldFits f

/-- Under the filter the store lists these entries, by id. -/
def Listing : Backing → Filter → List Entry → Prop
  | indexed s, f, es => s.rows.filter f.admits = es
  | table t, f, es =>
    Store.Table.Lists { t with rows := t.rows.filter (Store.Table.admits f) } es

/-- The store is sound and lists the entries, by id. -/
def Lists : Backing → List Entry → Prop
  | indexed s, es => s.Sound ∧ s.rows = es
  | table t, es => t.Lists es

/-- The store is sound and holds the entries, by id. -/
def Holds : Backing → List Entry → Prop
  | indexed s, es => s.Sound ∧ s.rows = es
  | table t, es => t.Reads es

/-- An answer does not change the kind of the store. -/
@[simp] theorem keep_answer (b : Backing) (c : Store.Call) : (b.answer c).2.keep = b.keep := by
  cases b <;> rfl

@[simp] theorem takes_answer (b : Backing) (c : Store.Call) : (b.answer c).2.Takes = b.Takes := by
  cases b <;> rfl

theorem takesField_locked (b : Backing) (e : Entry) : b.TakesField e .locked := by
  cases b <;> trivial

theorem takesField_updated {b : Backing} {e : Entry} (h : b.Takes e.updated) :
    b.TakesField e .updated := by
  cases b with
  | indexed s => trivial
  | table t => exact h

theorem takesField_expires {b : Backing} {e : Entry} (h : ∀ t ∈ e.expires, b.Takes t) :
    b.TakesField e .expires := by
  cases b with
  | indexed s => trivial
  | table t => exact h

theorem takesField_hidden {b : Backing} {e : Entry} (h : ∀ t ∈ e.hidden, b.Takes t) :
    b.TakesField e .hidden := by
  cases b with
  | indexed s => trivial
  | table t => exact h

/-- What an update writes to one field and to the time of the last update. -/
theorem takesField_pair {b : Backing} {e : Entry} {f : Field} (hf : b.TakesField e f)
    (hu : b.Takes e.updated) : ∀ g ∈ [f, .updated], b.TakesField e g := by
  rw [List.forall_mem_cons, List.forall_mem_singleton]
  exact ⟨hf, takesField_updated hu⟩

namespace Listing

variable {b : Backing} {f : Filter} {es : List Entry}

theorem list (h : b.Listing f es) (limit : Option Nat) (offset : Nat) :
    b.answer (.list { filter := f, limit, offset })
      = (.ok (Store.window offset limit es), b) := by
  cases b with
  | indexed s =>
      obtain rfl := h
      rfl
  | table t =>
      have hl := Store.Table.Lists.list_of_picked h limit offset
      simp only [answer, Store.Table.answer, hl]

/-- A count of what is listed. -/
theorem count (h : b.Listing f es) : b.answer (.count f) = (.ok es.length, b) := by
  cases b with
  | indexed s =>
      obtain rfl := h
      simp only [answer, Store.Indexed.answer, Store.Indexed.count, List.countP_eq_length_filter]
  | table t =>
      have hl := Store.Table.Lists.length_eq h
      simp only [answer, Store.Table.answer, List.countP_eq_length_filter, ← hl]

theorem length_le (h : b.Listing f es) : es.length ≤ b.size := by
  cases b with
  | indexed s =>
      obtain rfl := h
      exact List.length_filter_le _ _
  | table t =>
      rw [← Store.Table.Lists.length_eq h]
      exact List.length_filter_le _ _

end Listing

namespace Lists

variable {b : Backing} {es : List Entry}

theorem listing (h : b.Lists es) (f : Filter) : b.Listing f (es.filter f.admits) := by
  cases b with
  | indexed s => exact congrArg (List.filter f.admits) h.2
  | table t => exact Store.Table.Lists.picked h f

/-- No two entries have one id. -/
theorem ids (h : b.Lists es) : (es.map (·.id)).Nodup := by
  cases b with
  | indexed s => exact h.2 ▸ h.1.ids
  | table t => exact Store.Table.Lists.ids h

/-- The entries stand in the order of their ids. -/
theorem ascending (h : b.Lists es) : es.Pairwise fun a b => a.id < b.id := by
  cases b with
  | indexed s => exact h.2 ▸ h.1.ascending
  | table t => exact Store.Table.Lists.ascending h

theorem size_eq (h : b.Lists es) : b.size = es.length := by
  cases b with
  | indexed s => exact congrArg List.length h.2
  | table t => exact Store.Table.Lists.length_eq h

/-- A count. -/
theorem count (h : b.Lists es) (f : Filter) :
    b.answer (.count f) = (.ok (es.countP f.admits), b) := by
  cases b with
  | indexed s =>
      obtain ⟨-, rfl⟩ := h
      rfl
  | table t =>
      have hc := Store.Table.Lists.count h f
      simp only [answer, Store.Table.answer, hc]

/-- A list by id. -/
theorem list (h : b.Lists es) (f : Filter) (limit : Option Nat) (offset : Nat) :
    b.answer (.list { filter := f, limit, offset })
      = (.ok (Store.window offset limit (es.filter f.admits)), b) :=
  (h.listing f).list limit offset

/-- **An update** of an entry that is there is carried out, and rewrites that entry alone. -/
theorem update (h : b.Lists es) {source e : Entry} {fields : List Field} (he : e ∈ es)
    (hid : e.id = source.id) (hne : fields ≠ []) (ht : ∀ f ∈ fields, b.TakesField source f) :
    (b.answer (.update source fields)).1 = .ok () ∧
      (b.answer (.update source fields)).2.Lists
        (es.map (Store.Indexed.rewrite (b.keepEntry source) fields)) := by
  cases b with
  | indexed s =>
      obtain ⟨hs, rfl⟩ := h
      have hu : s.update source fields = _ := Store.Indexed.update_eq hs he hid
      simp only [answer, Store.Indexed.answer, hu]
      exact ⟨trivial, hs.update source fields, rfl⟩
  | table t => exact Store.Table.Lists.update h he hid hne ht

/-- **An erasure** of an entry that is there is carried out, and takes out that entry alone. -/
theorem erase (h : b.Lists es) {e : Entry} (he : e ∈ es) :
    (b.answer (.erase e.id)).1 = .ok () ∧
      (b.answer (.erase e.id)).2.Lists (es.filter (·.id != e.id)) := by
  cases b with
  | indexed s =>
      obtain ⟨hs, rfl⟩ := h
      have hu : s.erase e.id = _ := Store.Indexed.erase_eq hs he
      simp only [answer, Store.Indexed.answer, hu]
      exact ⟨trivial, hs.erase he, rfl⟩
  | table t => exact Store.Table.Lists.erase h he

/-- An update of locked text and time. -/
theorem relocked (h : b.Lists es) (source : Entry) {e : Entry} (he : e ∈ es)
    (hid : e.id = source.id) (ht : b.Takes source.updated) :
    (b.answer (.update source [.locked, .updated])).1 = .ok () ∧
      (b.answer (.update source [.locked, .updated])).2.Lists (es.map fun r =>
        if r.id = source.id then
          { r with locked := source.locked, updated := b.keep source.updated } else r) := by
  have htake : ∀ f ∈ [Field.locked, .updated], b.TakesField source f :=
    takesField_pair (takesField_locked b source) ht
  have hu := h.update he hid (List.cons_ne_nil _ _) htake
  cases b <;> exact hu

end Lists

namespace Holds

variable {b : Backing} {es : List Entry}

theorem lists (h : b.Holds es) : b.Lists es := by
  cases b with
  | indexed s => exact h
  | table t => exact Store.Table.Reads.lists h

/-- No two entries have one id. -/
theorem ids (h : b.Holds es) : (es.map (·.id)).Nodup :=
  h.lists.ids

/-- No two entries have one token. -/
theorem tokens (h : b.Holds es) : (es.map (·.token)).Nodup := by
  cases b with
  | indexed s => exact h.2 ▸ h.1.tokens
  | table t => exact Store.Table.Reads.tokens h

theorem size_eq (h : b.Holds es) : b.size = es.length :=
  h.lists.size_eq

theorem count_all (h : b.Holds es) : b.answer (.count .all) = (.ok es.length, b) := by
  rw [h.lists.count, List.countP_eq_length_filter, Filter.filter_all]

theorem list_all (h : b.Holds es) : b.answer (.list { filter := .all }) = (.ok es, b) := by
  rw [h.lists.list, Filter.filter_all]
  rfl

theorem list_page (h : b.Holds es) (offset size : Nat) :
    b.answer (.list (.page .all offset size)) = (.ok ((es.drop offset).take size), b) := by
  rw [Query.page, h.lists.list, Filter.filter_all]
  rfl

/-- **A search by token** finds the entry that has it. -/
theorem find (h : b.Holds es) (token : String) :
    ∃ found, b.answer (.findToken token) = (.ok found, b) ∧
      ∀ e, found = some e ↔ e ∈ es ∧ e.token = token := by
  cases b with
  | indexed s =>
      obtain ⟨hs, rfl⟩ := h
      exact ⟨s.findToken token, rfl, fun e => hs.findToken_eq_some⟩
  | table t =>
      have hl := Store.Table.Reads.lists h
      cases hr : t.rows.find? (·.token == some token) with
      | none =>
          refine ⟨none, ?_, fun e => ⟨nofun, fun ⟨he, htoken⟩ => ?_⟩⟩
          · simp only [answer, Store.Table.answer, Store.Table.find, hr]
          · obtain ⟨r, hmem, hholds⟩ := hl.exists_row he
            exact absurd (beq_iff_eq.2 (hholds.token_eq.trans (congrArg some htoken)))
              (List.find?_eq_none.1 hr r hmem)
      | some r =>
          obtain ⟨e, he, hholds⟩ := hl.exists_entry (List.mem_of_find?_eq_some hr)
          have hpick := List.find?_some hr
          rw [beq_iff_eq, hholds.token_eq] at hpick
          have htoken : e.token = token := Option.some.inj hpick
          refine ⟨some e, ?_, fun e' => ⟨?_, fun ⟨he', htoken'⟩ => ?_⟩⟩
          · simp only [answer, Store.Table.answer, Store.Table.find, hr, Store.Table.readRow,
              hholds.1, Except.mapError, Except.map]
          · rintro ⟨⟩
            exact ⟨he, htoken⟩
          · exact congrArg some (List.inj_on_of_nodup_map (Store.Table.Reads.tokens h) he he'
              (htoken.trans htoken'.symm))

/-- What is found under a token is an entry that has it. -/
theorem found (h : b.Holds es) {token : String} {e : Entry}
    (ha : (b.answer (.findToken token)).1 = .ok (some e)) : e ∈ es ∧ e.token = token := by
  obtain ⟨found, hfind, hfound⟩ := h.find token
  rw [hfind] at ha
  exact (hfound e).1 (Except.ok.inj ha)

/-- **An update of locked text and time** of an entry that is there is carried out, and rewrites
that entry alone. -/
theorem relocked (h : b.Holds es) (source : Entry) {e : Entry} (he : e ∈ es)
    (hid : e.id = source.id) (ht : b.Takes source.updated) :
    (b.answer (.update source [.locked, .updated])).1 = .ok () ∧
      (b.answer (.update source [.locked, .updated])).2.Holds (es.map fun r =>
        if r.id = source.id then
          { r with locked := source.locked, updated := b.keep source.updated } else r) := by
  obtain ⟨hok, hl⟩ := h.lists.relocked source he hid ht
  refine ⟨hok, ?_⟩
  cases b with
  | indexed s => exact hl
  | table t =>
      refine Store.Table.Lists.reads hl ((congrArg List.Nodup ?_).mpr h.tokens)
      rw [List.map_map]
      refine List.map_congr_left fun r _ => ?_
      simp only [Function.comp_apply]
      split <;> rfl

end Holds

end Strongbox.Backing
