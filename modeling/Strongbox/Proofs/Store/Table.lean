import Mathlib.Data.List.Forall2
import Strongbox.Proofs.Store.Row
import Strongbox.Proofs.Store.Sorting

/-!
# Store — tables that read

A table reads as a list of entries if each of its rows, in the order of their ids, holds one of
them under the usual text of its id.

* `mapM_eq_ok_iff`, `mapM_eq_error_iff`: items that are read one after another.
* `Table.Lists`: the table reads as these entries, whose ids are apart.
* `Table.Lists.map`, `Table.Lists.filter`: rows rewritten and left out as entries are.
* `Table.Lists.count`, `Table.Lists.list_of_picked`: what a filter admits of the entries is what the
  table counts and lists.
* `Table.Lists.update`, `Table.Lists.erase`: after an update the table reads as the entries with one
  of them rewritten, and after an erasure as the entries without one.
* `Table.Reads`: the same of a table whose tokens are apart too.
-/

namespace Strongbox.Store

/-! ### Items read one after another -/

section

variable {α β ε : Type} {f : α → Except ε β} {xs : List α}

theorem mapM_cons_ok {x : α} {y : β} (hx : f x = .ok y) :
    (x :: xs).mapM f = (xs.mapM f).map (y :: ·) := by
  rw [List.mapM_cons, hx]
  rfl

theorem mapM_cons_error {x : α} {error : ε} (hx : f x = .error error) :
    (x :: xs).mapM f = .error error := by
  rw [List.mapM_cons, hx]
  rfl

/-- Items are read together if each of them is. -/
theorem mapM_eq_ok_iff {ys : List β} :
    xs.mapM f = .ok ys ↔ List.Forall₂ (fun x y => f x = .ok y) xs ys := by
  induction xs generalizing ys with
  | nil => simp [pure, Except.pure, eq_comm]
  | cons x xs ih =>
      cases hx : f x with
      | error error =>
          rw [mapM_cons_error hx, List.forall₂_cons_left_iff]
          simp [hx]
      | ok y =>
          rw [mapM_cons_ok hx, List.forall₂_cons_left_iff]
          simp only [hx, Except.ok.injEq, ← ih]
          cases xs.mapM f <;> simp [Except.map, eq_comm]

/-- The error is that of the first item that is not read. -/
theorem mapM_eq_error_iff {error : ε} :
    xs.mapM f = .error error ↔ ∃ front x back, xs = front ++ x :: back ∧
      (∀ a ∈ front, ∃ b, f a = .ok b) ∧ f x = .error error := by
  constructor
  · intro h
    induction xs with
    | nil => cases h
    | cons x xs ih =>
        cases hx : f x with
        | error error' =>
            obtain rfl := Except.error.inj ((mapM_cons_error hx).symm.trans h)
            exact ⟨[], x, xs, rfl, nofun, hx⟩
        | ok y =>
            have hxs : xs.mapM f = .error error := by
              rw [mapM_cons_ok hx] at h
              cases hrest : xs.mapM f with
              | error error' => rwa [hrest] at h
              | ok ys => rw [hrest] at h; cases h
            obtain ⟨front, a, back, rfl, hfront, ha⟩ := ih hxs
            exact ⟨x :: front, a, back, rfl, List.forall_mem_cons.2 ⟨⟨y, hx⟩, hfront⟩, ha⟩
  · rintro ⟨front, x, back, rfl, hfront, hx⟩
    induction front with
    | nil => exact mapM_cons_error hx
    | cons a front ih =>
        obtain ⟨⟨b, hb⟩, hfront⟩ := List.forall_mem_cons.1 hfront
        rw [List.cons_append, mapM_cons_ok hb, ih hfront]
        rfl

end

/-- What items have pair by pair, the items read from them have. -/
theorem pairwise_of_forall₂ {α β : Type} {R : α → β → Prop} {P : α → α → Prop} {Q : β → β → Prop}
    {xs : List α} {ys : List β} (h : List.Forall₂ R xs ys) (hxs : xs.Pairwise P)
    (hQ : ∀ {x x' y y'}, x ∈ xs → x' ∈ xs → R x y → R x' y' → P x x' → Q y y') :
    ys.Pairwise Q := by
  refine List.pairwise_iff_getElem.2 fun i j hi hj hij => ?_
  have hi' : i < xs.length := by rwa [h.length_eq]
  have hj' : j < xs.length := by rwa [h.length_eq]
  exact hQ (List.getElem_mem hi') (List.getElem_mem hj') (h.get hi' hi) (h.get hj' hj)
    (List.pairwise_iff_getElem.1 hxs i j hi' hj' hij)

namespace Table

/-! ### Windows -/

/-- The bound on limits and offsets cuts nothing off that the window would show. -/
def Roomy (offset : Nat) (limit : Option Nat) (rows : Nat) : Prop :=
  rows ≤ greatestBound ∨ (offset ≤ greatestBound ∧ ∀ size ∈ limit, size ≤ greatestBound)

theorem window_min {α : Type} {xs : List α} {offset : Nat} {limit : Option Nat}
    (h : Roomy offset limit xs.length) :
    window (min offset greatestBound) (limit.map (min · greatestBound)) xs
      = window offset limit xs := by
  have hd : xs.drop (min offset greatestBound) = xs.drop offset := by
    by_cases ho : offset ≤ greatestBound
    · rw [Nat.min_eq_left ho]
    · have hlen : xs.length ≤ greatestBound := h.resolve_right fun hb => ho hb.1
      rw [List.drop_of_length_le (by omega), List.drop_of_length_le (by omega)]
  cases limit with
  | none => exact hd
  | some size =>
      simp only [window, Option.map_some, hd]
      by_cases hs : size ≤ greatestBound
      · rw [Nat.min_eq_left hs]
      · have hlen : xs.length ≤ greatestBound := h.resolve_right fun hb => hs (hb.2 size rfl)
        have : (xs.drop offset).length ≤ greatestBound := by
          rw [List.length_drop]
          omega
        rw [List.take_of_length_le (by omega), List.take_of_length_le (by omega)]

theorem window_sublist {α : Type} (offset : Nat) (limit : Option Nat) (xs : List α) :
    (window offset limit xs).Sublist xs := by
  cases limit with
  | none => exact List.drop_sublist offset xs
  | some size => exact (List.take_sublist size _).trans (List.drop_sublist offset xs)

theorem mem_of_mem_window {α : Type} {offset : Nat} {limit : Option Nat} {xs : List α} {x : α}
    (h : x ∈ window offset limit xs) : x ∈ xs :=
  (window_sublist offset limit xs).mem h

theorem forall₂_window {α β : Type} {R : α → β → Prop} {xs : List α} {ys : List β}
    (h : List.Forall₂ R xs ys) (offset : Nat) (limit : Option Nat) :
    List.Forall₂ R (window offset limit xs) (window offset limit ys) := by
  cases limit with
  | none => exact List.forall₂_drop offset h
  | some size => exact List.forall₂_take size (List.forall₂_drop offset h)

theorem mapM_readRow {rs : List Row} {es : List Entry} (h : List.Forall₂ Row.Holds rs es) :
    rs.mapM readRow = .ok es := by
  refine mapM_eq_ok_iff.2 (h.imp fun r e hr => ?_)
  rw [readRow, hr.1, Except.mapError]

/-! ### Tables whose ids are apart -/

/-- The table reads as the entries, by id; ids are apart, and no bound on limits and offsets is in
the way. -/
structure Lists (t : Table) (es : List Entry) : Prop where
  rows : List.Forall₂ Row.Holds (t.rows.mergeSort (inOrder .id)) es
  ids : (es.map (·.id)).Nodup
  small : t.rows.length ≤ greatestBound

namespace Lists

variable {t : Table} {es : List Entry}

theorem length_eq (h : t.Lists es) : t.rows.length = es.length := by
  rw [← h.rows.length_eq, List.length_mergeSort]

/-- Rows have different ids too. -/
theorem nodup_rows (h : t.Lists es) : (t.rows.map (·.id)).Nodup := by
  have hids : (t.rows.mergeSort (inOrder .id)).map (·.id)
      = (es.map (·.id)).map fun id => some id.text := by
    rw [← List.forall₂_eq_eq_eq, List.map_map, List.forall₂_map_left_iff,
      List.forall₂_map_right_iff]
    exact h.rows.imp fun r e hr => hr.2
  rw [← ((List.mergeSort_perm t.rows (inOrder .id)).map (·.id)).nodup_iff, hids]
  exact (List.nodup_map_iff fun _ _ he => Uuid.text_inj (Option.some.inj he)).2 h.ids

/-- The entries stand in the order of their ids. -/
theorem ascending (h : t.Lists es) : es.Pairwise fun a b => a.id < b.id := by
  have hsorted : (t.rows.mergeSort (inOrder .id)).Pairwise fun a b => inOrder .id a b = true :=
    List.pairwise_mergeSort (sorts_inOrder .id).trans (sorts_inOrder .id).total t.rows
  have hnot : es.Pairwise fun a b => ¬ b.id < a.id := by
    refine pairwise_of_forall₂ h.rows hsorted fun _ _ ha hb hab => ?_
    simpa only [inOrder, ha.2, hb.2, cellBefore, Uuid.text_lt_iff, Bool.not_eq_true',
      decide_eq_false_iff_not] using hab
  exact (hnot.and (List.pairwise_map.1 h.ids)).imp fun hab =>
    Uuid.lt_of_not_lt hab.1 (Ne.symm hab.2)

/-- Rows are rewritten as their entries are, under the same ids. -/
theorem map (h : t.Lists es) {f : Row → Row} {g : Entry → Entry} (hf : ∀ r, (f r).id = r.id)
    (hg : ∀ e, (g e).id = e.id) (hfg : ∀ {r e}, r.Holds e → (f r).Holds (g e)) :
    Lists { t with rows := t.rows.map f } (es.map g) where
  rows := by
    -- the order of the rows depends on their ids alone
    rw [← List.map_mergeSort (r := inOrder .id) fun a _ b _ => by simp only [inOrder, hf],
      List.forall₂_map_left_iff, List.forall₂_map_right_iff]
    exact h.rows.imp fun r e hr => hfg hr
  ids := by
    rw [List.map_map]
    simpa only [Function.comp_def, hg] using h.ids
  small := by simpa only [List.length_map] using h.small

/-- Rows are left out as their entries are. -/
theorem filter (h : t.Lists es) {p : Row → Bool} {q : Entry → Bool}
    (hpq : ∀ {r e}, r.Holds e → p r = q e) :
    Lists { t with rows := t.rows.filter p } (es.filter q) where
  rows := by
    rw [(sorts_inOrder .id).filter_mergeSort _ (eq_of_inOrder h.nodup_rows)]
    refine List.rel_filter (fun r e hr => ?_) h.rows
    change p r = true ↔ q e = true
    rw [hpq hr]
  ids := (List.filter_sublist.map _).nodup h.ids
  small := Nat.le_trans (List.length_filter_le _ _) h.small

/-- What a table lists under a filter, if the rows picked read as some entries. -/
theorem list_of_picked {f : Filter} (h : Lists { t with rows := t.rows.filter (admits f) } es)
    (limit : Option Nat) (offset : Nat) :
    t.list { filter := f, limit, offset } = .ok (window offset limit es) := by
  have hlen : ((t.rows.filter (admits f)).mergeSort (inOrder .id)).length ≤ greatestBound := by
    rw [List.length_mergeSort]
    exact h.small
  simp only [Table.list, pick, window_min (.inl hlen)]
  exact mapM_readRow (forall₂_window h.rows offset limit)

/-- The rows that a filter picks read as the entries that it admits. -/
theorem picked (h : t.Lists es) (f : Filter) :
    Lists { t with rows := t.rows.filter (admits f) } (es.filter f.admits) :=
  h.filter fun hr => hr.admits f

theorem count (h : t.Lists es) (f : Filter) : t.rows.countP (admits f) = es.countP f.admits := by
  rw [List.countP_eq_length_filter, List.countP_eq_length_filter]
  exact (h.picked f).length_eq

/-- Every entry has a row. -/
theorem exists_row (h : t.Lists es) {e : Entry} (he : e ∈ es) : ∃ r ∈ t.rows, r.Holds e := by
  obtain ⟨n, hn, rfl⟩ := List.getElem_of_mem he
  have hn' : n < (t.rows.mergeSort (inOrder .id)).length := by rwa [h.rows.length_eq]
  exact ⟨_, List.mem_mergeSort.1 (List.getElem_mem hn'), h.rows.get hn' hn⟩

/-- Every row holds an entry. -/
theorem exists_entry (h : t.Lists es) {r : Row} (hr : r ∈ t.rows) : ∃ e ∈ es, r.Holds e := by
  have hsorted : r ∈ t.rows.mergeSort (inOrder .id) := List.mem_mergeSort.2 hr
  obtain ⟨n, hn, rfl⟩ := List.getElem_of_mem hsorted
  have hn' : n < es.length := by rwa [← h.rows.length_eq]
  exact ⟨_, List.getElem_mem hn', h.rows.get hn hn'⟩

/-- The row of an entry is there. -/
theorem any_id (h : t.Lists es) {e : Entry} (he : e ∈ es) :
    t.rows.any (·.id == some e.id.text) = true := by
  obtain ⟨r, hr, hholds⟩ := h.exists_row he
  exact List.any_eq_true.2 ⟨r, hr, beq_iff_eq.2 hholds.2⟩

/-- **An update.**  The table reads as before but for the one entry. -/
theorem update (h : t.Lists es) {e source : Entry} {fields : List Field} (he : e ∈ es)
    (hid : e.id = source.id) (hne : fields ≠ []) (hf : ∀ f ∈ fields, source.FieldFits f) :
    (t.update source fields).1 = .ok () ∧
      (t.update source fields).2.Lists (es.map (Indexed.rewrite source.floorMicros fields)) := by
  have hany := h.any_id he
  rw [hid] at hany
  simp only [Table.update, List.isEmpty_eq_false_iff.2 hne, Bool.false_eq_true, if_false, hany,
    if_true]
  refine ⟨trivial, h.map (fun r => ?_) (Indexed.id_rewrite _ fields) fun {r a} hr => ?_⟩
  · split
    · exact Row.id_setFields r source fields
    · rfl
  · have hfloor : source.floorMicros.id = source.id := rfl
    by_cases ha : a.id = source.id
    · rw [if_pos (hr.id_eq_iff.2 ha), Indexed.rewrite, hfloor, if_pos ha]
      exact hr.setFields hf
    · rw [if_neg fun e => ha (hr.id_eq_iff.1 e), Indexed.rewrite, hfloor, if_neg ha]
      exact hr

/-- **An erasure.**  The table reads as before but for the one entry. -/
theorem erase (h : t.Lists es) {e : Entry} (he : e ∈ es) :
    (t.erase e.id).1 = .ok () ∧ (t.erase e.id).2.Lists (es.filter (·.id != e.id)) := by
  simp only [Table.erase, h.any_id he, if_true]
  refine ⟨trivial, h.filter fun {r a} hr => ?_⟩
  rw [Bool.eq_iff_iff, bne_iff_ne, bne_iff_ne]
  exact not_congr hr.id_eq_iff

end Lists

/-! ### Tables whose tokens are apart too -/

/-- The table reads as the entries, by id; ids and tokens are apart, and no bound on limits and
offsets is in the way. -/
structure Reads (t : Table) (es : List Entry) : Prop where
  rows : List.Forall₂ Row.Holds (t.rows.mergeSort (inOrder .id)) es
  ids : (es.map (·.id)).Nodup
  tokens : (es.map (·.token)).Nodup
  small : t.rows.length ≤ greatestBound

theorem Reads.lists {t : Table} {es : List Entry} (h : t.Reads es) : t.Lists es :=
  ⟨h.rows, h.ids, h.small⟩

theorem Lists.reads {t : Table} {es : List Entry} (h : t.Lists es)
    (htokens : (es.map (·.token)).Nodup) : t.Reads es :=
  ⟨h.rows, h.ids, htokens, h.small⟩

end Table

end Strongbox.Store
