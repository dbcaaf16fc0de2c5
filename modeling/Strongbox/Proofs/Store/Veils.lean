import Strongbox.Proofs.Store.Mirror
import Strongbox.Proofs.Store.Records

/-!
# Store — a hidden record left out

Two stores differ by one hidden record.  Whoever asks for active entries gets the same from both,
and an update of any other entry leaves two stores that differ by that record again.

* `Record.Veils`: the second store is the first without the hidden record.
* `Record.Veils.lookUp`: what is found under a token, but for the hidden record itself.
* `Record.Veils.reply_list`: every list of active entries.
* `Record.Veils.reply_update`, `Record.Veils.update`: an update of another entry.
* `Backing.shown`: the number of active records, which goes down with each one that is hidden.
-/

namespace Strongbox

open Store (Record)

namespace Backing

/-- A table has no more rows than its limits and offsets can number. -/
def Small : Backing → Prop
  | indexed _ => True
  | table t => t.rows.length ≤ Store.Table.greatestBound

/-- The records are apart, and no limit or offset is in the way. -/
structure Tidy (b : Backing) : Prop where
  apart : b.Apart
  small : b.Small

/-- Some active record reads as the entry. -/
def Shows (b : Backing) (e : Entry) : Prop :=
  ∃ x ∈ b.records, x.admits .active = true ∧ x.read = .ok e

/-- The number of active records. -/
def shown (b : Backing) : Nat :=
  b.records.countP (·.admits .active)

variable {b b' : Backing} {x y : Record} {e source : Entry} {fields : List Field}

theorem shown_le_size (b : Backing) : b.shown ≤ b.size :=
  b.length_records ▸ List.countP_le_length

/-- What is of the kind of a store is so after any call to it. -/
theorem SameKind.of_answer (h : b.SameKind b') (c : Store.Call) : (b.answer c).2.SameKind b' := by
  cases h with
  | indexed h => exact .indexed h
  | table h => exact .table (h.trans (table_enforced _ c).symm)

/-- Whether a store is tidy is a matter of its kind and its records. -/
theorem SameKind.tidy (h : b.SameKind b') (hb : b.Tidy)
    (hp : b'.records.Pairwise Record.Apart) (hle : b'.records.length ≤ b.records.length) :
    b'.Tidy := by
  cases h with
  | indexed h => exact ⟨h, trivial⟩
  | table h =>
      simp only [records, List.length_map] at hle
      exact ⟨List.pairwise_map.1 hp, Nat.le_trans hle hb.small⟩

/-! ### Updates -/

/-- Records that are apart stay so when they are rewritten. -/
theorem pairwise_rewrite {xs : List Record} (h : xs.Pairwise Record.Apart) :
    (xs.map (·.rewrite source fields)).Pairwise Record.Apart := by
  refine List.pairwise_map.2 (h.imp fun hxy => ⟨fun id => ?_, fun token => ?_⟩)
  · rw [Record.id?_rewrite, Record.id?_rewrite]
    exact hxy.ids id
  · rw [Record.token?_rewrite, Record.token?_rewrite]
    exact hxy.tokens token

theorem Tidy.update (h : b.Tidy) (source : Entry) (fields : List Field) :
    (b.answer (.update source fields)).2.Tidy := by
  refine (h.apart.sameKind.answer _).tidy h ?_ ?_
  · rw [records_update]
    exact pairwise_rewrite h.apart.pairwise
  · simp only [records_update, List.length_map, Nat.le_refl]

/-- An update by another id leaves an active record in its place. -/
theorem Shows.update (h : b.Shows e) (hne : e.id ≠ source.id) :
    (b.answer (.update source fields)).2.Shows e := by
  obtain ⟨x, hx, hact, hread⟩ := h
  have hid : x.id? ≠ some source.id := by
    rw [Record.id?_of_read hread]
    exact fun heq => hne (Option.some.inj heq)
  refine ⟨x, ?_, hact, hread⟩
  rw [records_update]
  exact List.mem_map.2 ⟨x, hx, Record.rewrite_eq_self (Record.isAt_eq_false hid)⟩

/-- **One active record is hidden.** -/
theorem Shows.hide (hb : b.Apart) (h : b.Shows e) (source : Entry) (hid : source.id = e.id)
    (hhidden : source.isHidden = true)
    (ha : (b.answer (.update source [.hidden, .updated])).1 = .ok ()) :
    (b.answer (.update source [.hidden, .updated])).2.shown + 1 = b.shown := by
  obtain ⟨x, hx, hact, hread⟩ := h
  obtain ⟨front, back, hr⟩ := List.append_of_mem hx
  have hidx : x.id? = some source.id := by rw [hid, Record.id?_of_read hread]
  have hat := hb.update_reaches hx hidx (List.cons_ne_nil _ _) ha
  have hgone : (x.setFields source [.hidden, .updated]).admits .active = false :=
    Record.admits_eq_false rfl (Record.isHidden_setFields hhidden)
  rw [shown, shown, records_update, hb.map_rewrite hr hidx, Record.rewrite_of_isAt hat, hr,
    List.countP_append, List.countP_append, List.countP_cons_of_pos hact,
    List.countP_cons_of_neg (by simp [hgone])]
  rfl

/-! ### Lists -/

theorem map_read_of_mapM {rows : List Store.Row} {es : List Entry}
    (h : rows.mapM Store.Table.readRow = .ok es) :
    (rows.map Record.row).map Record.read = es.map .ok := by
  rw [List.map_map, ← List.forall₂_eq_eq_eq, List.forall₂_map_left_iff, List.forall₂_map_right_iff]
  exact Store.mapM_eq_ok_iff.1 h

/-- A list leaves the store as it was. -/
theorem store_list (b : Backing) (q : Query) : (b.answer (.list q)).2 = b := by
  cases b <;> rfl

/-- **What a list is read from**: a window of the records that the filter admits, in some order. -/
theorem reads_list {q : Query} {es : List Entry} (hb : b.Small)
    (ha : (b.answer (.list q)).1 = .ok es) :
    ∃ xs : List Record, xs.Perm (b.records.filter (·.admits q.filter)) ∧
      (Store.window q.offset q.limit xs).map Record.read = es.map .ok := by
  cases b with
  | indexed s =>
      obtain rfl := Except.ok.inj ha
      refine ⟨(s.sorted q.filter q.order).map .entry, ?_, ?_⟩
      · rw [records, List.filter_map]
        refine List.Perm.map _ ?_
        cases h : q.order with
        | id => exact .rfl
        | created | token => exact List.mergeSort_perm _ _
      · rw [Store.window_map, List.map_map]
        rfl
  | table t =>
      have hlen : ((t.rows.filter (Store.Table.admits q.filter)).mergeSort
          (Store.Table.inOrder q.order)).length ≤ Store.Table.greatestBound := by
        rw [List.length_mergeSort]
        exact Nat.le_trans (List.length_filter_le _ _) hb
      have hread : (t.pick q).mapM Store.Table.readRow = .ok es := ha
      rw [Store.Table.pick, Store.Table.window_min (.inl hlen)] at hread
      refine ⟨_, ?_, (congrArg (List.map Record.read) (Store.window_map _ _ _ _)).trans
        (map_read_of_mapM hread)⟩
      rw [records, List.filter_map]
      exact (List.mergeSort_perm _ _).map _

/-- What is listed is decided by the records that the filter admits. -/
theorem reply_list_congr {q : Query} (hk : b.SameKind b')
    (h : b.records.filter (·.admits q.filter) = b'.records.filter (·.admits q.filter)) :
    (b.answer (.list q)).1 = (b'.answer (.list q)).1 := by
  simp only [records] at h
  cases hk with
  | @indexed s s' =>
      simp only [List.filter_map, List.map_inj_right fun _ _ => Record.entry.inj] at h
      have hrows : s.rows.filter q.filter.admits = s'.rows.filter q.filter.admits := h
      simp only [answer, Store.Indexed.answer, Store.Indexed.list, Store.Indexed.sorted, hrows]
  | @table t t' =>
      simp only [List.filter_map, List.map_inj_right fun _ _ => Record.row.inj] at h
      have hrows : t.rows.filter (Store.Table.admits q.filter)
          = t'.rows.filter (Store.Table.admits q.filter) := h
      simp only [answer, Store.Table.answer, Store.Table.list, Store.Table.pick, hrows]

/-- Some admitted record reads as an entry that is listed. -/
theorem exists_of_mem_list {q : Query} {es : List Entry} (hs : b.Small)
    (ha : (b.answer (.list q)).1 = .ok es) (he : e ∈ es) :
    ∃ x ∈ b.records, x.admits q.filter = true ∧ x.read = .ok e := by
  obtain ⟨xs, hp, hread⟩ := reads_list hs ha
  have hm : Except.ok e ∈ es.map (Except.ok (ε := StoreError)) := List.mem_map_of_mem he
  rw [← hread] at hm
  obtain ⟨x, hx, hxe⟩ := List.mem_map.1 hm
  obtain ⟨hmem, hadm⟩ := List.mem_filter.1 (hp.mem_iff.1 (Store.Table.mem_of_mem_window hx))
  exact ⟨x, hmem, hadm, hxe⟩

/-- Records that are apart read as entries whose ids are apart. -/
theorem nodup_ids {xs : List Record} {es : List Entry} (h : xs.Pairwise Record.Apart)
    (hread : xs.map Record.read = es.map .ok) : (es.map (·.id)).Nodup := by
  have hids : (xs.map Record.read).Pairwise fun r r' =>
      ∀ e e', r = .ok e → r' = .ok e' → e.id ≠ e'.id := by
    refine List.pairwise_map.2 (h.imp fun hxy e e' he he' hid => ?_)
    exact hxy.ids e.id (Record.id?_of_read he) (hid ▸ Record.id?_of_read he')
  rw [hread] at hids
  exact List.pairwise_map.2 ((List.pairwise_map.1 hids).imp fun hne => hne _ _ rfl rfl)

/-- **A page of active entries**: their ids are apart, and there are no more of them than active
records after the offset. -/
theorem page_bounds (hb : b.Tidy) {offset size : Nat} {es : List Entry}
    (ha : (b.answer (.list (.page .active offset size))).1 = .ok es) :
    (es.map (·.id)).Nodup ∧ es.length ≤ b.shown - offset := by
  obtain ⟨xs, hp, hread⟩ := reads_list hb.small ha
  have hread : ((xs.drop offset).take size).map Record.read = es.map .ok := hread
  constructor
  · refine nodup_ids ?_ hread
    have hxs : xs.Pairwise Record.Apart :=
      (hp.pairwise_iff Record.Apart.symm).2 (hb.apart.pairwise.filter _)
    exact hxs.sublist ((List.take_sublist _ _).trans (List.drop_sublist _ _))
  · have hlen := congrArg List.length hread
    have hxs : xs.length = b.shown := by
      rw [hp.length_eq, shown, List.countP_eq_length_filter]
      rfl
    simp only [List.length_map, List.length_take, List.length_drop] at hlen
    omega

end Backing

/-! ### A hidden record -/

namespace Store.Record

variable {x : Record} {b b' : Backing} {source : Entry} {fields : List Field}

/-- The record is hidden and reads as an entry, and the second store is the first without it: of the
same kind, with the other records in their places. -/
structure Veils (x : Record) (b b' : Backing) : Prop where
  reads : ∃ e, x.read = .ok e
  hidden : x.isHidden = true
  tidy : b.Tidy
  kind : b.SameKind b'
  records : ∃ front back, b.records = front ++ x :: back ∧ b'.records = front ++ back

namespace Veils

/-- No other record has the id or the token of the hidden one. -/
theorem others (h : x.Veils b b') {y : Record} (hy : y ∈ b'.records) : x.Apart y := by
  obtain ⟨front, back, hr, hr'⟩ := h.records
  obtain ⟨hfront, hback⟩ := h.tidy.apart.others hr
  rw [hr'] at hy
  exact (List.mem_append.1 hy).elim (hfront y) (hback y)

theorem sublist (h : x.Veils b b') : b'.records.Sublist b.records := by
  obtain ⟨front, back, hr, hr'⟩ := h.records
  rw [hr, hr']
  exact (List.Sublist.refl front).append (List.sublist_cons_self x back)

theorem tidy_without (h : x.Veils b b') : b'.Tidy :=
  h.kind.tidy h.tidy (h.tidy.apart.pairwise.sublist h.sublist) h.sublist.length_le

/-- **What is found under a token** is found in both stores, unless it is the hidden record. -/
theorem lookUp (h : x.Veils b b') (token : String) :
    (∃ e, b.lookUp token = .ok (some e) ∧ e.isHidden = true ∧ b'.lookUp token = .ok none) ∨
      b.lookUp token = b'.lookUp token := by
  obtain ⟨front, back, hr, hr'⟩ := h.records
  by_cases ht : x.token? = some token
  · obtain ⟨e, hread⟩ := h.reads
    obtain ⟨hfront, hback⟩ := h.tidy.apart.others hr
    have hno : ∀ ys : List Record, (∀ y ∈ ys, x.Apart y) →
        ys.find? (·.token? == some token) = none := by
      intro ys hys
      refine List.find?_eq_none.2 fun y hy hty => ?_
      exact (hys y hy).tokens token ht (beq_iff_eq.1 hty)
    refine .inl ⟨e, ?_, (Record.isHidden_of_read hread).symm.trans h.hidden, ?_⟩
    · rw [Backing.lookUp, hr, List.find?_append, hno front hfront, Option.none_or,
        List.find?_cons_of_pos (by simpa using ht)]
      exact congrArg (Except.map some) hread
    · rw [Backing.lookUp, hr', List.find?_append, hno front hfront, hno back hback]
      rfl
  · refine .inr ?_
    rw [Backing.lookUp, Backing.lookUp, hr, hr', List.find?_append, List.find?_append,
      List.find?_cons_of_neg (by simpa using ht)]

/-- An entry that is read from another record has another id. -/
theorem ne_of_read (h : x.Veils b b') {y : Record} {e : Entry} (hy : y ∈ b'.records)
    (hread : y.read = .ok e) : x.id? ≠ some e.id :=
  fun hid => (h.others hy).ids e.id hid (Record.id?_of_read hread)

/-- **Every list of active entries** is the same. -/
theorem reply_list (h : x.Veils b b') {q : Query} (hq : q.filter.withHidden = false) :
    (b.answer (.list q)).1 = (b'.answer (.list q)).1 := by
  obtain ⟨front, back, hr, hr'⟩ := h.records
  have hadm : b.records.filter (·.admits q.filter) = b'.records.filter (·.admits q.filter) := by
    rw [hr, hr', List.filter_append, List.filter_append,
      List.filter_cons_of_neg (by simp [Record.admits_eq_false hq h.hidden])]
  exact Backing.reply_list_congr h.kind hadm

/-- **An update of another entry** gets the same reply. -/
theorem reply_update (h : x.Veils b b') (hne : fields ≠ []) (hid : x.id? ≠ some source.id) :
    (b.answer (.update source fields)).1 = (b'.answer (.update source fields)).1 := by
  obtain ⟨front, back, hr, hr'⟩ := h.records
  rw [Backing.reply_update b source hne, Backing.reply_update b' source hne, hr, hr',
    List.any_append, List.any_append, List.any_cons, Record.isAt_eq_false hid, Bool.false_or]

/-- **An update of another entry** leaves two stores that differ by the same record. -/
theorem update (h : x.Veils b b') (hid : x.id? ≠ some source.id) :
    x.Veils (b.answer (.update source fields)).2 (b'.answer (.update source fields)).2 where
  reads := h.reads
  hidden := h.hidden
  tidy := h.tidy.update source fields
  kind := (h.kind.answer _).of_answer _
  records := by
    obtain ⟨front, back, hr, hr'⟩ := h.records
    refine ⟨front.map (·.rewrite source fields), back.map (·.rewrite source fields), ?_, ?_⟩
    · rw [Backing.records_update, hr, List.map_append, List.map_cons,
        Record.rewrite_eq_self (Record.isAt_eq_false hid)]
    · rw [Backing.records_update, hr', List.map_append]

end Veils

end Store.Record

end Strongbox
