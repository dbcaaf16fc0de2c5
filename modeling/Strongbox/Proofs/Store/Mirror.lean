import Strongbox.Proofs.Store.Table
import Strongbox.World

/-!
# Store — a table that mirrors an indexed store

A table with a schema mirrors an indexed store when its rows are those of the store's entries, in
any order.  The two then answer every call alike, but for what the columns lose of instants.

* `Mirrors.create`, `Mirrors.update`, `Mirrors.erase`: writes are taken and refused alike, and the
  table goes on mirroring the store.
* `Mirrors.findId`, `Mirrors.findToken`, `Mirrors.count`, `Mirrors.list`: what is read from the
  table, told by the entries.
* `Mirrors.after`: so it is after any calls.
-/

namespace Strongbox

namespace Store

theorem window_map {α β : Type} (f : α → β) (offset : Nat) (limit : Option Nat) (xs : List α) :
    window offset limit (xs.map f) = (window offset limit xs).map f := by
  cases limit with
  | none => exact List.map_drop.symm
  | some size => simp only [window, List.map_drop, List.map_take]

/-- A cell that holds another text, or none, does not hold the same text. -/
theorem Table.sameText_eq_false {c : Cell} {text : String} :
    Table.sameText c (some text) = false ↔ c ≠ some text := by
  cases c with
  | none => exact ⟨fun _ => nofun, fun _ => rfl⟩
  | some a => exact beq_eq_false_iff_ne.trans ne_comm

/-- What is listed of the rows of entries is what is read back of the entries. -/
theorem Table.list_of_pick {t : Table} {q : Query} {es : List Entry}
    (h : t.pick q = es.map Row.ofEntry) : t.list q = es.mapM Entry.readBack := by
  have hread : Table.readRow ∘ Row.ofEntry = Entry.readBack := by
    funext e
    rw [Function.comp_apply, Row.readRow_ofEntry]
  rw [Table.list, h, List.mapM_map, hread]

/-- The rows of the table are those of the entries of the store. -/
structure Mirrors (t : Table) (s : Indexed) : Prop where
  enforced : t.enforced = true
  sound : s.Sound
  rows : t.rows.Perm (s.rows.map Row.ofEntry)

theorem mirrors_empty : Mirrors (.empty true) .empty :=
  ⟨rfl, Indexed.sound_empty, .nil⟩

namespace Mirrors

variable {t : Table} {s : Indexed}

theorem length_eq (h : Mirrors t s) : t.rows.length = s.rows.length := by
  rw [h.rows.length_eq, List.length_map]

/-! ### Looking up -/

theorem nodup_ids (h : Mirrors t s) : (t.rows.map (·.id)).Nodup := by
  rw [(h.rows.map (·.id)).nodup_iff, List.map_map]
  refine List.pairwise_map.2 ((List.pairwise_map.1 h.sound.ids).imp fun hne he => hne ?_)
  exact Uuid.text_inj (Option.some.inj he)

theorem nodup_tokens (h : Mirrors t s) : (t.rows.map (·.token)).Nodup := by
  rw [(h.rows.map (·.token)).nodup_iff, List.map_map]
  refine List.pairwise_map.2 ((List.pairwise_map.1 h.sound.tokens).imp fun hne he => hne ?_)
  exact Option.some.inj he

theorem mem_iff (h : Mirrors t s) {r : Row} : r ∈ t.rows ↔ ∃ e ∈ s.rows, Row.ofEntry e = r := by
  rw [h.rows.mem_iff, List.mem_map]

/-- The row found under an id is the row of the entry found under it. -/
theorem find?_id (h : Mirrors t s) (id : Uuid) :
    t.rows.find? (·.id == some id.text) = (s.row? id).map Row.ofEntry := by
  refine Option.ext fun r => ?_
  rw [Indexed.find?_key h.nodup_ids, h.mem_iff, Option.map_eq_some_iff]
  constructor
  · rintro ⟨⟨e, he, rfl⟩, hid⟩
    exact ⟨e, h.sound.row?_eq_some.2 ⟨he, Row.id_ofEntry.1 hid⟩, rfl⟩
  · rintro ⟨e, he, rfl⟩
    obtain ⟨hm, rfl⟩ := h.sound.row?_eq_some.1 he
    exact ⟨⟨e, hm, rfl⟩, rfl⟩

/-- The row found under a token is the row of the entry found under it. -/
theorem find?_token (h : Mirrors t s) (token : String) :
    t.rows.find? (·.token == some token) = (s.findToken token).map Row.ofEntry := by
  refine Option.ext fun r => ?_
  rw [Indexed.find?_key h.nodup_tokens, h.mem_iff, Option.map_eq_some_iff]
  constructor
  · rintro ⟨⟨e, he, rfl⟩, ht⟩
    exact ⟨e, h.sound.findToken_eq_some.2 ⟨he, Option.some.inj ht⟩, rfl⟩
  · rintro ⟨e, he, rfl⟩
    obtain ⟨hm, rfl⟩ := h.sound.findToken_eq_some.1 he
    exact ⟨⟨e, hm, rfl⟩, rfl⟩

theorem any_id (h : Mirrors t s) (id : Uuid) :
    t.rows.any (·.id == some id.text) = (s.row? id).isSome := by
  rw [← List.isSome_find?, h.find?_id, Option.isSome_map]

end Mirrors

/-- What a table reads back of an entry that may be there. -/
def readBack? : Option Entry → Except StoreError (Option Entry)
  | some e => e.readBack.map some
  | none => .ok none

namespace Mirrors

variable {t : Table} {s : Indexed}

theorem findId (h : Mirrors t s) (id : Uuid) :
    t.find (·.id == some id.text) = readBack? (s.row? id) := by
  rw [Table.find, h.find?_id]
  cases s.row? id with
  | none => rfl
  | some e => simp only [Option.map_some, readBack?, Row.readRow_ofEntry]

theorem findToken (h : Mirrors t s) (token : String) :
    t.find (·.token == some token) = readBack? (s.findToken token) := by
  rw [Table.find, h.find?_token]
  cases s.findToken token with
  | none => rfl
  | some e => simp only [Option.map_some, readBack?, Row.readRow_ofEntry]

theorem filter_rows (h : Mirrors t s) (f : Filter) :
    (t.rows.filter (Table.admits f)).Perm ((s.rows.filter f.admits).map Row.ofEntry) := by
  refine (h.rows.filter _).trans ?_
  rw [List.filter_map]
  have : Table.admits f ∘ Row.ofEntry = f.admits := funext fun e => Row.admits_ofEntry e f
  rw [this]

theorem count (h : Mirrors t s) (f : Filter) : t.rows.countP (Table.admits f) = s.count f := by
  rw [List.countP_eq_length_filter, (h.filter_rows f).length_eq, List.length_map, Indexed.count,
    List.countP_eq_length_filter]

/-- The rows picked, told by the entries: those admitted, in the order of their rows. -/
theorem pick (h : Mirrors t s) (q : Query) {le : Entry → Entry → Bool}
    (hle : ∀ a ∈ s.rows, ∀ b ∈ s.rows,
      le a b = Table.inOrder q.order (Row.ofEntry a) (Row.ofEntry b)) :
    t.pick q = (window (min q.offset Table.greatestBound)
      (q.limit.map (min · Table.greatestBound))
      ((s.rows.filter q.filter.admits).mergeSort le)).map Row.ofEntry := by
  have hids : ((t.rows.filter (Table.admits q.filter)).map (·.id)).Nodup :=
    (List.filter_sublist.map _).nodup h.nodup_ids
  rw [Table.pick, ← window_map]
  congr 1
  rw [(Table.sorts_inOrder q.order).mergeSort_congr (h.filter_rows q.filter)
    (Table.eq_of_inOrder hids)]
  refine (List.map_mergeSort fun a ha b hb => ?_).symm
  exact hle a (List.mem_filter.1 ha).1 b (List.mem_filter.1 hb).1

/-- The rows picked, as long as the bound on limits and offsets does not show: those of the entries
that the store lists. -/
theorem pick_listed (h : Mirrors t s) {q : Query}
    (hle : ∀ a ∈ s.rows, ∀ b ∈ s.rows,
      Indexed.inOrder q.order a b = Table.inOrder q.order (Row.ofEntry a) (Row.ofEntry b))
    (hroom : Table.Roomy q.offset q.limit t.rows.length) :
    t.pick q = (s.list q).map Row.ofEntry := by
  have hlen : Table.Roomy q.offset q.limit
      ((s.rows.filter q.filter.admits).mergeSort (Indexed.inOrder q.order)).length := by
    refine hroom.imp_left fun hl => Nat.le_trans ?_ hl
    rw [List.length_mergeSort, h.length_eq]
    exact List.length_filter_le _ _
  rw [h.pick q hle, Table.window_min hlen, Indexed.list, h.sound.sorted_eq]

/-- **A list**, told by the entries. -/
theorem list (h : Mirrors t s) (q : Query) {le : Entry → Entry → Bool}
    (hle : ∀ a ∈ s.rows, ∀ b ∈ s.rows,
      le a b = Table.inOrder q.order (Row.ofEntry a) (Row.ofEntry b)) :
    t.list q = (window (min q.offset Table.greatestBound)
      (q.limit.map (min · Table.greatestBound))
      ((s.rows.filter q.filter.admits).mergeSort le)).mapM Entry.readBack :=
  Table.list_of_pick (h.pick q hle)

/-! ### Writing -/

/-- A row fits where neither its id nor its token is taken. -/
theorem fits_ofEntry (h : Mirrors t s) (e : Entry) :
    Table.fits t.rows (Row.ofEntry e) = true ↔
      s.row? e.id = none ∧ s.findToken e.token = none := by
  rw [Indexed.Sound.row?_eq_none, h.sound.findToken_eq_none]
  have hall : Table.fits t.rows (Row.ofEntry e) = true ↔ ∀ r ∈ t.rows,
      Table.sameText r.id (some e.id.text) = false ∧
        Table.sameText r.token (some e.token) = false := by
    simp only [Table.fits, Row.ofEntry, Option.isSome_some, Bool.true_and, List.all_eq_true,
      Bool.and_eq_true, Bool.not_eq_true']
  rw [hall]
  constructor
  · intro hr
    have hrow := fun x hx => hr _ (h.mem_iff.2 ⟨x, hx, rfl⟩)
    exact ⟨fun x hx he => Table.sameText_eq_false.1 (hrow x hx).1
        (congrArg some (congrArg Uuid.text he)),
      fun x hx he => Table.sameText_eq_false.1 (hrow x hx).2 (congrArg some he)⟩
  · rintro ⟨hids, htokens⟩ r hr
    obtain ⟨x, hx, rfl⟩ := h.mem_iff.1 hr
    exact ⟨Table.sameText_eq_false.2 fun he => hids x hx (Uuid.text_inj (Option.some.inj he)),
      Table.sameText_eq_false.2 fun he => htokens x hx (Option.some.inj he)⟩

/-- **A new entry** is taken or refused alike. -/
theorem create (h : Mirrors t s) (e : Entry) :
    (t.create e).1 = (s.create e).1 ∧ Mirrors (t.create e).2 (s.create e).2 := by
  by_cases hf : Table.fits t.rows (Row.ofEntry e) = true
  · obtain ⟨hid, htoken⟩ := (h.fits_ofEntry e).1 hf
    have hcreate := Indexed.create_eq h.sound htoken hid
    simp only [Table.create, Table.insertRow?, hf, hcreate, Bool.not_true, Bool.and_false,
      Bool.false_eq_true, if_false]
    refine ⟨trivial, h.enforced, h.sound.create htoken hid, ?_⟩
    have hrows := (Indexed.insertRow_perm e s.rows).map Row.ofEntry
    exact (List.perm_append_singleton _ t.rows).trans ((h.rows.cons _).trans hrows.symm)
  · have hno : ¬ (s.row? e.id = none ∧ s.findToken e.token = none) := mt (h.fits_ofEntry e).2 hf
    have htaken : (s.idOf? e.token).isSome ∨ (s.row? e.id).isSome := by
      by_contra hfree
      simp only [not_or, Option.not_isSome_iff_eq_none] at hfree
      exact hno ⟨hfree.2, by rw [Indexed.findToken, hfree.1, Option.bind_none]⟩
    simp only [Table.create, Table.insertRow?, h.enforced, Bool.eq_false_iff.2 hf, Bool.not_false,
      Bool.and_self, if_true, Indexed.create, if_pos htaken]
    exact ⟨trivial, h⟩

/-- **An update** is carried out or refused alike. -/
theorem update (h : Mirrors t s) (e : Entry) {fields : List Field} (hne : fields ≠ []) :
    (t.update e fields).1 = (s.update e fields).1 ∧
      Mirrors (t.update e fields).2 (s.update e fields).2 := by
  have hempty : fields.isEmpty = false := List.isEmpty_eq_false_iff.2 hne
  simp only [Table.update, hempty, h.any_id, Indexed.update, Bool.false_eq_true, if_false]
  by_cases hs : (s.row? e.id).isSome = true
  · simp only [if_pos hs]
    refine ⟨trivial, h.enforced, h.sound.update e fields, ?_⟩
    refine (h.rows.map _).trans (List.Perm.of_eq ?_)
    rw [List.map_map, List.map_map]
    refine List.map_congr_left fun r _ => ?_
    simp only [Function.comp_apply]
    by_cases hr : r.id = e.id
    · rw [if_pos (Row.id_ofEntry.2 hr), if_pos hr, Row.ofEntry_setFields]
    · rw [if_neg (mt Row.id_ofEntry.1 hr), if_neg hr]
  · simp only [if_neg hs]
    exact ⟨trivial, h⟩

/-- **An erasure** is carried out or refused alike. -/
theorem erase (h : Mirrors t s) (id : Uuid) :
    (t.erase id).1 = (s.erase id).1 ∧ Mirrors (t.erase id).2 (s.erase id).2 := by
  simp only [Table.erase, h.any_id]
  cases hr : s.row? id with
  | none =>
      simp only [Indexed.erase, hr, Option.isSome_none, Bool.false_eq_true, if_false]
      exact ⟨trivial, h⟩
  | some e =>
      obtain ⟨he, rfl⟩ := h.sound.row?_eq_some.1 hr
      have herase := Indexed.erase_eq h.sound he
      simp only [herase, Option.isSome_some, if_true]
      refine ⟨trivial, h.enforced, h.sound.erase he, ?_⟩
      refine (h.rows.filter _).trans (List.Perm.of_eq ?_)
      rw [List.filter_map]
      refine congrArg (List.map Row.ofEntry) (List.filter_congr fun r _ => ?_)
      rw [Function.comp_apply, Bool.eq_iff_iff, bne_iff_ne, bne_iff_ne]
      exact not_congr Row.id_ofEntry

/-- An update of no fields leaves both as they are. -/
theorem update_nil (h : Mirrors t s) (e : Entry) :
    Mirrors (t.update e []).2 (s.update e []).2 := by
  have hrows : s.rows.map (fun r => if r.id = e.id then r.setFields e [] else r) = s.rows := by
    refine (List.map_congr_left fun r _ => ?_).trans (List.map_id _)
    split <;> rfl
  have hs : (s.update e []).2 = s := by
    simp only [Indexed.update, hrows]
    split <;> rfl
  rw [hs]
  exact h

/-- **Any call** leaves a table that mirrors the store. -/
theorem answer (h : Mirrors t s) (c : Call) : Mirrors (t.answer c).2 (s.answer c).2 := by
  cases c with
  | create e => exact (h.create e).2
  | update e fields =>
      cases fields with
      | nil => exact h.update_nil e
      | cons f fields => exact (h.update e (List.cons_ne_nil f fields)).2
  | erase id => exact (h.erase id).2
  | findId | findToken | list | count => exact h

end Mirrors

/-! ### Calls one after another -/

end Store

/-- The store after calls, one after another. -/
def Backing.after (b : Backing) (calls : List Store.Call) : Backing :=
  calls.foldl (fun b c => (b.answer c).2) b

namespace Store

/-- After the same calls a table mirrors an indexed store that it mirrored before. -/
theorem Mirrors.after {t : Table} {s : Indexed} (h : Mirrors t s) (calls : List Call) :
    ∃ t' s', (Backing.table t).after calls = .table t' ∧
      (Backing.indexed s).after calls = .indexed s' ∧ Mirrors t' s' := by
  induction calls generalizing t s with
  | nil => exact ⟨t, s, rfl, rfl, h⟩
  | cons c calls ih => exact ih (h.answer c)

end Store

end Strongbox
