import Mathlib.Data.List.Nodup
import Strongbox.Proofs.Store.Indexed
import Strongbox.Proofs.Time.Order
import Strongbox.Store.Table

/-!
# Store — what lists are sorted by

Entries and rows are sorted by one key and, where that does not decide, by another.

* `Sorts`: an order that a list can be sorted by; `Looks`: a comparison of keys that makes one.
* `Indexed.sorts_inOrder`, `Table.sorts_inOrder`: every order of a store is one to sort by.
* `Table.eq_of_inOrder`: no order puts each of two rows with different ids before the other.
-/

namespace Strongbox.Store

/-! ### Orders to sort by -/

section

variable {α β : Type} {before : α → α → Bool} {le : α → α → Bool}

/-- Any list can be sorted by the order. -/
structure Sorts (le : α → α → Bool) : Prop where
  trans : ∀ a b c, le a b = true → le b c = true → le a c = true
  total : ∀ a b, (le a b || le b a) = true

/-- One item comes before another by the look of a key; items with one key come in no order. -/
structure Looks (before : α → α → Bool) : Prop where
  asymm : ∀ {a b}, before a b = true → before b a = false
  trans : ∀ {a b c}, before a b = false → before b c = false → before a c = false

/-- A key looked up in an item. -/
theorem Looks.comap (h : Looks before) (f : β → α) : Looks fun a b => before (f a) (f b) :=
  ⟨h.asymm, h.trans⟩

/-- Where no two items come before each other, a list sorts the same way from any order. -/
theorem Sorts.mergeSort_congr (h : Sorts le) {l l' : List α} (hp : l.Perm l')
    (hanti : ∀ a ∈ l, ∀ b ∈ l, le a b = true → le b a = true → a = b) :
    l.mergeSort le = l'.mergeSort le := by
  have hs : ∀ l : List α, (l.mergeSort le).Pairwise fun a b => le a b = true :=
    List.pairwise_mergeSort h.trans h.total
  refine List.Perm.eq_of_pairwise (fun a b ha hb => ?_) (hs l) (hs l') ?_
  · exact hanti a (List.mem_mergeSort.1 ha) b (hp.mem_iff.2 (List.mem_mergeSort.1 hb))
  · exact (List.mergeSort_perm l le).trans (hp.trans (List.mergeSort_perm l' le).symm)

/-- A sorted list stays sorted when items are left out. -/
theorem Sorts.filter_mergeSort (h : Sorts le) {l : List α} (p : α → Bool)
    (hanti : ∀ a ∈ l, ∀ b ∈ l, le a b = true → le b a = true → a = b) :
    (l.filter p).mergeSort le = (l.mergeSort le).filter p := by
  have hs : (l.mergeSort le).Pairwise fun a b => le a b = true :=
    List.pairwise_mergeSort h.trans h.total l
  refine (h.mergeSort_congr ((List.mergeSort_perm l le).filter p).symm fun a ha b hb => ?_).trans
    (List.mergeSort_of_pairwise (hs.filter p))
  exact hanti a (List.mem_filter.1 ha).1 b (List.mem_filter.1 hb).1

/-- Sorting by one key. -/
theorem Looks.sorts (h : Looks before) : Sorts fun a b => !before b a where
  trans a b c hab hbc := by
    simp only [Bool.not_eq_true'] at hab hbc ⊢
    exact h.trans hbc hab
  total a b := by
    cases hb : before b a with
    | false => rfl
    | true => simp [h.asymm hb]

/-- Sorting by one key and then by another order. -/
theorem Looks.sorts_then (h : Looks before) (hle : Sorts le) :
    Sorts fun a b => before a b || (!before b a && le a b) where
  trans a b c hab hbc := by
    simp only [Bool.or_eq_true, Bool.and_eq_true, Bool.not_eq_true'] at hab hbc ⊢
    have hac : before c a = false := h.trans (c := a) (b := b)
      (hbc.elim h.asymm (·.1)) (hab.elim h.asymm (·.1))
    cases hb : before a c with
    | true => exact .inl rfl
    | false =>
        -- neither step moved on in the key, so the other order decides both
        have hab' : before a b = false := h.trans hb (hbc.elim h.asymm (·.1))
        have hbc' : before b c = false := h.trans (hab.elim h.asymm (·.1)) hb
        rw [hab'] at hab
        rw [hbc'] at hbc
        simp only [Bool.false_eq_true, false_or] at hab hbc
        exact .inr ⟨hac, hle.trans a b c hab.2 hbc.2⟩
  total a b := by
    have := hle.total a b
    cases hab : before a b <;> cases hba : before b a <;> simp_all

end

/-! ### Keys -/

theorem looks_uuid : Looks fun a b : Uuid => decide (a < b) where
  asymm h := by
    simp only [decide_eq_true_eq, decide_eq_false_iff_not, Uuid.lt_iff] at h ⊢
    omega
  trans h h' := by
    simp only [decide_eq_false_iff_not, Uuid.lt_iff] at h h' ⊢
    omega

theorem looks_instant : Looks fun a b : Instant => decide (a < b) where
  asymm h := by
    simp only [decide_eq_true_eq, decide_eq_false_iff_not, Instant.lt_iff] at h ⊢
    omega
  trans h h' := by
    simp only [decide_eq_false_iff_not, Instant.lt_iff] at h h' ⊢
    omega

theorem looks_string : Looks fun a b : String => decide (a < b) where
  asymm h := by
    simp only [decide_eq_true_eq, decide_eq_false_iff_not] at h ⊢
    exact String.lt_asymm h
  trans h h' := by
    simp only [decide_eq_false_iff_not, String.not_lt] at h h' ⊢
    exact String.le_trans h' h

/-- Empty cells come first. -/
theorem looks_cell : Looks Table.cellBefore where
  asymm {a b} h :=
    match a, b, h with
    | none, some _, _ => rfl
    | some _, some _, h => looks_string.asymm h
  trans {a b c} h h' :=
    match a, b, c, h, h' with
    | none, none, _, _, h' => h'
    | some _, _, none, _, _ => rfl
    | some _, some _, some _, h, h' => looks_string.trans h h'

/-! ### The orders of stores -/

theorem Indexed.sorts_inOrder (order : Order) : Sorts (Indexed.inOrder order) := by
  have hid : Sorts fun a b : Entry => !decide (b.id < a.id) := (looks_uuid.comap Entry.id).sorts
  cases order with
  | id => exact hid
  | created => exact (looks_instant.comap Entry.created).sorts_then hid
  | token => exact (looks_string.comap Entry.token).sorts_then hid

theorem Table.sorts_inOrder (order : Order) : Sorts (Table.inOrder order) := by
  have hid : Sorts fun a b : Row => !cellBefore b.id a.id := (looks_cell.comap Row.id).sorts
  cases order with
  | id => exact hid
  | created => exact (looks_cell.comap Row.created).sorts_then hid
  | token => exact (looks_cell.comap Row.token).sorts_then hid

/-- The entries of a sound store stand in the order of their ids. -/
theorem Indexed.Sound.sorted_eq {s : Indexed} (h : s.Sound) (f : Filter) (order : Order) :
    s.sorted f order = (s.rows.filter f.admits).mergeSort (inOrder order) := by
  cases order with
  | id =>
      refine (List.mergeSort_of_pairwise ((h.ascending.filter _).imp fun {a b} hlt => ?_)).symm
      have hno : ¬ b.id < a.id := fun hgt => Uuid.lt_irrefl _ (Uuid.lt_trans hlt hgt)
      simp [inOrder, hno]
  | created | token => rfl

/-- Cells of which neither comes before the other are one. -/
theorem Table.cell_eq {a b : Cell} (h : cellBefore a b = false) (h' : cellBefore b a = false) :
    a = b := by
  match a, b, h, h' with
  | none, none, _, _ => rfl
  | some a, some b, h, h' =>
      simp only [cellBefore, decide_eq_false_iff_not, String.not_lt] at h h'
      exact congrArg some (String.le_antisymm h' h)

/-- Whatever rows are sorted by, those with different ids do not stand in both orders. -/
theorem Table.eq_of_inOrder {rows : List Row} (hids : (rows.map (·.id)).Nodup) {order : Order} :
    ∀ a ∈ rows, ∀ b ∈ rows, inOrder order a b = true → inOrder order b a = true → a = b := by
  intro a ha b hb hab hba
  refine List.inj_on_of_nodup_map hids ha hb ?_
  cases order with
  | id =>
      simp only [inOrder, Bool.not_eq_true'] at hab hba
      exact cell_eq hba hab
  | created | token =>
      simp only [inOrder, Bool.or_eq_true, Bool.and_eq_true, Bool.not_eq_true'] at hab hba
      have hno := hab.elim looks_cell.asymm (·.1)
      have hno' := hba.elim looks_cell.asymm (·.1)
      have hid := hab.resolve_left (ne_true_of_eq_false hno')
      have hid' := hba.resolve_left (ne_true_of_eq_false hno)
      exact cell_eq hid'.2 hid.2

end Strongbox.Store
