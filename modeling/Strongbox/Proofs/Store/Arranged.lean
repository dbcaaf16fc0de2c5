import Mathlib.Data.List.Lex
import Strongbox.Proofs.Store.Sorting
import Strongbox.Proofs.Text.Bytes

/-!
# Store — which rows a table lists, and in which order

A table compares text and knows nothing about what the text means.  A filter is a list of
conditions on single cells.  Nobody knows whether an empty cell equals a text, so such a condition
is neither true nor false, and a row is taken if all conditions of the filter are true together.
Rows are sorted by the bytes of their cells, an empty cell first, and rows with the same cells keep
the order in which they were put in.

* `Condition.truth`, `together`: what is known of one condition and of several.
* `Row.Meets`, `Row.Fulfils`: the rows that a filter takes, said by its conditions and plainly.
* `Row.Before`: a row that comes before another in an order, by the bytes of its cells.
* `Arranged`: a list of rows sorted with the ties kept; `arranged_mergeSort`: every list of rows can
  be arranged, and `Arranged.unique`: in one way only.
-/

namespace Strongbox.Store

/-! ### Conditions -/

/-- A condition on one cell of a row. -/
inductive Condition where
  | isEmpty (cell : Row → Cell)
  | equals (cell : Row → Cell) (text : String)
  | among (cell : Row → Cell) (texts : List String)

/-- Whether the condition is true of a row, as far as that is known: an empty cell may equal any
text, but nothing is in an empty set. -/
def Condition.truth (r : Row) : Condition → Option Bool
  | isEmpty cell => some (cell r).isNone
  | equals cell text => (cell r).map (· == text)
  | among cell texts => if texts.isEmpty then some false else (cell r).map texts.contains

/-- Two truths together: false if one of them is, whatever the other. -/
def both : Option Bool → Option Bool → Option Bool
  | some true, b => b
  | some false, _ => some false
  | none, some false => some false
  | none, _ => none

/-- Several truths together. -/
def together (truths : List (Option Bool)) : Option Bool :=
  truths.foldr both (some true)

/-- The conditions of a filter. -/
def Condition.ofFilter (f : Filter) : List Condition :=
  (if f.withHidden then [] else [isEmpty Row.hidden])
    ++ (f.id.map fun id => equals Row.id id.text).toList
    ++ (f.ids.map fun ids => among Row.id (ids.map Uuid.text)).toList
    ++ (f.token.map fun token => equals Row.token token).toList
    ++ (f.tokens.map fun tokens => among Row.token tokens).toList

theorem both_eq_true {a b : Option Bool} :
    both a b = some true ↔ a = some true ∧ b = some true := by
  rcases a with - | - | - <;> rcases b with - | - | - <;> decide

theorem together_eq_true {truths : List (Option Bool)} :
    together truths = some true ↔ ∀ b ∈ truths, b = some true := by
  induction truths with
  | nil => exact ⟨fun _ => nofun, fun _ => rfl⟩
  | cons b truths ih =>
      rw [together, List.foldr_cons, both_eq_true, List.forall_mem_cons]
      exact and_congr_right fun _ => ih

section

variable {r : Row} {cell : Row → Cell}

theorem Condition.truth_isEmpty : (isEmpty cell).truth r = some true ↔ cell r = none := by
  rw [truth, Option.some.injEq, Option.isNone_iff_eq_none]

theorem Condition.truth_equals {text : String} :
    (equals cell text).truth r = some true ↔ cell r = some text := by
  rw [truth, Option.map_eq_some_iff]
  simp only [beq_iff_eq, exists_eq_right]

theorem Condition.truth_among {texts : List String} :
    (among cell texts).truth r = some true ↔ ∃ text ∈ texts, cell r = some text := by
  cases texts with
  | nil => exact ⟨nofun, fun ⟨_, h, _⟩ => nomatch h⟩
  | cons text texts =>
      rw [truth, if_neg (by simp), Option.map_eq_some_iff]
      simp only [List.contains_iff_mem, and_comm]

end

namespace Row

/-- The filter takes the row: all of its conditions are true together. -/
def Meets (f : Filter) (r : Row) : Prop :=
  together ((Condition.ofFilter f).map (Condition.truth r)) = some true

instance (f : Filter) (r : Row) : Decidable (r.Meets f) :=
  inferInstanceAs (Decidable (_ = _))

theorem mem_texts {ids : List Uuid} {c : Cell} :
    (∃ text ∈ ids.map Uuid.text, c = some text) ↔ ∃ id ∈ ids, c = some id.text := by
  simp only [List.mem_map, exists_exists_and_eq_and]

/-- What a filter asks of a row.  Any text hides a row, readable or not, and an empty cell has no id
and no token. -/
structure Fulfils (f : Filter) (r : Row) : Prop where
  shown : f.withHidden = false → r.hidden = none
  id : ∀ id ∈ f.id, r.id = some id.text
  ids : ∀ ids ∈ f.ids, ∃ id ∈ ids, r.id = some id.text
  token : ∀ token ∈ f.token, r.token = some token
  tokens : ∀ tokens ∈ f.tokens, ∃ token ∈ tokens, r.token = some token

theorem fulfils_iff {f : Filter} {r : Row} :
    r.Fulfils f ↔ (f.withHidden = false → r.hidden = none) ∧
      (∀ id ∈ f.id, r.id = some id.text) ∧
      (∀ ids ∈ f.ids, ∃ id ∈ ids, r.id = some id.text) ∧
      (∀ token ∈ f.token, r.token = some token) ∧
      ∀ tokens ∈ f.tokens, ∃ token ∈ tokens, r.token = some token :=
  ⟨fun h => ⟨h.shown, h.id, h.ids, h.token, h.tokens⟩,
    fun ⟨hshown, hid, hids, htoken, htokens⟩ => ⟨hshown, hid, hids, htoken, htokens⟩⟩

/-- **The conditions of a filter** are true together of the rows that have what it asks for. -/
theorem meets_iff {f : Filter} {r : Row} : r.Meets f ↔ r.Fulfils f := by
  have hpart : ∀ {α : Type} {o : Option α} {g : α → Condition},
      (∀ c ∈ (o.map g).toList, c.truth r = some true) ↔ ∀ a ∈ o, (g a).truth r = some true := by
    intro α o g
    cases o <;> simp
  have hhidden : (∀ c ∈ if f.withHidden then [] else [Condition.isEmpty Row.hidden],
      c.truth r = some true) ↔ (f.withHidden = false → r.hidden = none) := by
    cases f.withHidden <;> simp [Condition.truth_isEmpty]
  rw [fulfils_iff, Meets, together_eq_true, List.forall_mem_map]
  simp only [Condition.ofFilter, List.forall_mem_append, hpart, hhidden, mem_texts,
    Condition.truth_equals, Condition.truth_among, and_assoc]

/-- A table takes the rows that meet the filter. -/
theorem admits_eq_decide (f : Filter) (r : Row) : Table.admits f r = decide (r.Meets f) := by
  rw [Bool.eq_iff_iff, decide_eq_true_eq, meets_iff, fulfils_iff]
  have hin : ∀ (c : Cell) (texts : List String),
      c.any texts.contains = true ↔ ∃ text ∈ texts, c = some text := by
    intro c texts
    cases c <;> simp
  simp only [Table.admits, Bool.and_eq_true, Bool.or_eq_true, Option.all_eq_true, beq_iff_eq,
    Option.isNone_iff_eq_none, hin, mem_texts, and_assoc]
  refine and_congr ?_ Iff.rfl
  rw [or_iff_not_imp_left, Bool.not_eq_true]

end Row

/-! ### The order of rows -/

/-- The first cell comes before the second: an empty one before any text, and texts by their
bytes. -/
inductive Cell.Before : Cell → Cell → Prop
  | empty (text : String) : Before none (some text)
  | text {s t : String} (h : Bytes.ofText s < Bytes.ofText t) : Before (some s) (some t)

/-- The cells that an order looks at, the first of them first. -/
def Row.sortedBy (order : Order) (r : Row) : List Cell :=
  match order with
  | .id => [r.id]
  | .created => [r.created, r.id]
  | .token => [r.token, r.id]

/-- The first row comes before the second: its first cell that differs does. -/
def Row.Before (order : Order) (a b : Row) : Prop :=
  List.Lex Cell.Before (a.sortedBy order) (b.sortedBy order)

/-- A table compares cells by their bytes. -/
theorem cellBefore_iff {a b : Cell} : Table.cellBefore a b = true ↔ Cell.Before a b := by
  match a, b with
  | none, none => exact ⟨nofun, nofun⟩
  | none, some t => exact ⟨fun _ => .empty t, fun _ => rfl⟩
  | some s, none => exact ⟨nofun, nofun⟩
  | some s, some t =>
      rw [Table.cellBefore, decide_eq_true_eq, ← Bytes.ofText_lt_iff]
      refine ⟨.text, ?_⟩
      rintro (- | h)
      exact h

instance : Std.Trichotomous Cell.Before where
  trichotomous a b hab hba := by
    rw [← cellBefore_iff, Bool.not_eq_true] at hab hba
    exact Table.cell_eq hab hba

instance : Std.Asymm Cell.Before where
  asymm a b hab hba := by
    rw [← cellBefore_iff] at hab hba
    exact absurd hba (ne_true_of_eq_false (looks_cell.asymm hab))

namespace Row

variable {order : Order} {a b : Row}

/-- Rows of which neither comes before the other have the same cells. -/
theorem sortedBy_eq (h : ¬ Before order a b) (h' : ¬ Before order b a) :
    a.sortedBy order = b.sortedBy order :=
  Std.Trichotomous.trichotomous (r := List.Lex Cell.Before) _ _ h h'

/-- Rows with the same cells come in no order. -/
theorem not_before (h : a.sortedBy order = b.sortedBy order) : ¬ Before order a b := by
  rw [Before, h]
  exact irrefl_of (List.Lex Cell.Before) _

theorem lex_pair {c c' d d' : Cell} : List.Lex Cell.Before [c, c'] [d, d'] ↔
    Cell.Before c d ∨ c = d ∧ Cell.Before c' d' := by
  constructor
  · rintro (- | h | h)
    · exact .inl h
    · exact .inr ⟨rfl, (List.lex_singleton_iff _ _).1 h⟩
  · rintro (h | ⟨rfl, h⟩)
    · exact .rel h
    · exact .cons (.rel h)

/-- A table compares one cell first and another where the first does not decide. -/
theorem thenBefore_iff {c c' d d' : Cell} :
    (Table.cellBefore c d || (!Table.cellBefore d c && !Table.cellBefore d' c')) = true ↔
      ¬ List.Lex Cell.Before [d, d'] [c, c'] := by
  rw [lex_pair, ← cellBefore_iff, ← cellBefore_iff]
  cases hdc : Table.cellBefore d c with
  | true => simp [looks_cell.asymm hdc]
  | false =>
      cases hcd : Table.cellBefore c d with
      | true =>
          have hne : d ≠ c := by
            rintro rfl
            exact absurd hcd (ne_true_of_eq_false hdc)
          simp [hne]
      | false =>
          obtain rfl := Table.cell_eq hdc hcd
          simp

/-- A table has two rows in order if the second does not come before the first. -/
theorem inOrder_iff : Table.inOrder order a b = true ↔ ¬ Before order b a := by
  cases order with
  | id =>
      rw [Before, sortedBy, sortedBy, List.lex_singleton_iff, ← cellBefore_iff, Table.inOrder,
        Bool.not_eq_true', Bool.not_eq_true]
  | created | token => exact thenBefore_iff

end Row

/-- The rows sorted, with those that have the same cells left in the order they came in. -/
structure Arranged (order : Order) (rows sorted : List Row) : Prop where
  ascending : sorted.Pairwise fun a b => ¬ Row.Before order b a
  ties : ∀ cells, sorted.filter (·.sortedBy order = cells) = rows.filter (·.sortedBy order = cells)

/-- **Any rows can be arranged**: a table sorts them so. -/
theorem arranged_mergeSort (order : Order) (rows : List Row) :
    Arranged order rows (rows.mergeSort (Table.inOrder order)) where
  ascending := by
    have h := List.pairwise_mergeSort (Table.sorts_inOrder order).trans
      (Table.sorts_inOrder order).total rows
    exact h.imp fun hab => Row.inOrder_iff.1 hab
  ties := by
    intro cells
    have hle : (rows.filter (·.sortedBy order = cells)).Pairwise
        fun a b => Table.inOrder order a b = true := by
      refine List.pairwise_of_forall_mem_list fun a ha b hb => Row.inOrder_iff.2 (Row.not_before ?_)
      exact (of_decide_eq_true (List.mem_filter.1 hb).2).trans
        (of_decide_eq_true (List.mem_filter.1 ha).2).symm
    -- rows with these cells stand in the sorted list as they came, and there are no more of them
    have hsub := (List.sublist_mergeSort (Table.sorts_inOrder order).trans
      (Table.sorts_inOrder order).total hle List.filter_sublist).filter (·.sortedBy order = cells)
    simp only [List.filter_filter, Bool.and_self] at hsub
    have hperm := (List.mergeSort_perm rows (Table.inOrder order)).filter
      (·.sortedBy order = cells)
    exact (hsub.eq_of_length hperm.length_eq.symm).symm

/-- No row of a sorted list comes before its first. -/
theorem Row.not_before_head {order : Order} {a b : Row} {rows : List Row}
    (h : (b :: rows).Pairwise fun a b => ¬ Before order b a) (ha : a ∈ b :: rows) :
    ¬ Before order a b := by
  rcases List.mem_cons.1 ha with rfl | ha
  · exact not_before rfl
  · exact (List.pairwise_cons.1 h).1 a ha

/-- What a filter keeps of two lists is the same, so it is of their tails. -/
theorem filter_cons_inj {α : Type} {p : α → Bool} {a b : α} {xs ys : List α} (hp : p a = p b)
    (h : (a :: xs).filter p = (b :: ys).filter p) :
    xs.filter p = ys.filter p ∧ (p a = true → a = b) := by
  cases ha : p a with
  | true =>
      rw [List.filter_cons_of_pos ha, List.filter_cons_of_pos (hp ▸ ha)] at h
      obtain ⟨hab, hrest⟩ := List.cons.inj h
      exact ⟨hrest, fun _ => hab⟩
  | false =>
      rw [List.filter_cons_of_neg (ne_true_of_eq_false ha),
        List.filter_cons_of_neg (ne_true_of_eq_false (hp ▸ ha))] at h
      exact ⟨h, nofun⟩

/-- Lists with the same rows at each key have the same rows. -/
theorem mem_of_ties {order : Order} {xs ys : List Row}
    (hties : ∀ cells, xs.filter (·.sortedBy order = cells) = ys.filter (·.sortedBy order = cells))
    (a : Row) : a ∈ xs ↔ a ∈ ys := by
  have h := congrArg (a ∈ ·) (hties (a.sortedBy order))
  simpa only [List.mem_filter, decide_true, and_true, eq_iff_iff] using h

/-- Sorted lists with the same rows at each key, in the same order there, are the same. -/
theorem eq_of_ties {order : Order} {xs ys : List Row}
    (hxs : xs.Pairwise fun a b => ¬ Row.Before order b a)
    (hys : ys.Pairwise fun a b => ¬ Row.Before order b a)
    (hties : ∀ cells, xs.filter (·.sortedBy order = cells) = ys.filter (·.sortedBy order = cells)) :
    xs = ys := by
  induction xs generalizing ys with
  | nil =>
      cases ys with
      | nil => rfl
      | cons b ys => exact absurd ((mem_of_ties hties b).2 List.mem_cons_self) List.not_mem_nil
  | cons a xs ih =>
      have hmem := mem_of_ties hties
      cases ys with
      | nil => exact absurd ((hmem a).1 List.mem_cons_self) List.not_mem_nil
      | cons b ys =>
          -- neither head comes before the other, so they are the first rows of one key
          have hcells : a.sortedBy order = b.sortedBy order :=
            Row.sortedBy_eq (Row.not_before_head hys ((hmem a).1 List.mem_cons_self))
              (Row.not_before_head hxs ((hmem b).2 List.mem_cons_self))
          have hsame : decide (a.sortedBy order = a.sortedBy order)
              = decide (b.sortedBy order = a.sortedBy order) := by rw [hcells]
          have hhead := filter_cons_inj hsame (hties (a.sortedBy order))
          obtain rfl := hhead.2 (decide_eq_true rfl)
          rw [ih (List.pairwise_cons.1 hxs).2 (List.pairwise_cons.1 hys).2
            fun cells => (filter_cons_inj rfl (hties cells)).1]

/-- **Rows are arranged in one way only.** -/
theorem Arranged.unique {order : Order} {rows sorted other : List Row}
    (h : Arranged order rows sorted) (h' : Arranged order rows other) : sorted = other :=
  eq_of_ties h.ascending h'.ascending fun cells => (h.ties cells).trans (h'.ties cells).symm

end Strongbox.Store
