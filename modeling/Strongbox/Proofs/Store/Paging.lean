import Strongbox.Proofs.Store.Sorting
import Strongbox.Proofs.Store.Tokens
import Strongbox.Proofs.Text.Bytes

/-!
# Store — a list page by page

A reader asks an indexed store for one page after another until a page is not full.  Every order of
the store decides between any two entries, by id at last, so the pages cut one list in pieces: what
is on them is the whole list, and each entry is on one page only.

* `Entry.Before`: an entry that comes before another in an order.
* `Indexed.Sound.before_sorted`: the entries of a list ascend strictly.
* `Indexed.PagesFrom`: the pages that a reader is given; `PagesFrom.flatten`: what is on them, and
  `exists_pagesFrom`: there is a last one.
* `Indexed.Sound.rows_eq`: stores that hold the same entries hold them in one order.
* `Indexed.pages_partition`: all of it together, after any calls.
-/

namespace Strongbox

/-- The first entry comes before the second in an order: by what the order looks at, and by id
where that does not decide. -/
def Entry.Before (order : Order) (a b : Entry) : Prop :=
  match order with
  | .id => a.id < b.id
  | .created => a.created < b.created ∨ (a.created = b.created ∧ a.id < b.id)
  | .token => Bytes.ofText a.token < Bytes.ofText b.token ∨ (a.token = b.token ∧ a.id < b.id)

namespace Store.Indexed

variable {s s' : Indexed} {filter : Filter} {order : Order} {size offset : Nat}

/-! ### Strict order -/

/-- Entries with different ids that stand in an order come one before the other. -/
theorem before_of_inOrder {a b : Entry} (h : inOrder order a b = true) (hne : a.id ≠ b.id) :
    a.Before order b := by
  cases order with
  | id => exact Uuid.lt_of_not_lt (by simpa [inOrder] using h) hne.symm
  | created =>
      simp only [inOrder, Bool.or_eq_true, Bool.and_eq_true, Bool.not_eq_true', decide_eq_true_eq,
        decide_eq_false_iff_not] at h
      by_cases hlt : a.created < b.created
      · exact .inl hlt
      · obtain ⟨hge, hid⟩ := h.resolve_left hlt
        have heq : a.created = b.created := by
          by_contra hn
          exact hge (Instant.lt_of_not_lt hlt hn)
        exact .inr ⟨heq, Uuid.lt_of_not_lt hid hne.symm⟩
  | token =>
      simp only [inOrder, Bool.or_eq_true, Bool.and_eq_true, Bool.not_eq_true', decide_eq_true_eq,
        decide_eq_false_iff_not] at h
      by_cases hlt : a.token < b.token
      · exact .inl (Bytes.ofText_lt hlt)
      · obtain ⟨hge, hid⟩ := h.resolve_left hlt
        exact .inr ⟨String.le_antisymm (String.not_lt.1 hge) (String.not_lt.1 hlt),
          Uuid.lt_of_not_lt hid hne.symm⟩

/-- A list has the admitted entries, in some order. -/
theorem Sound.sorted_perm (h : s.Sound) (filter : Filter) (order : Order) :
    (s.sorted filter order).Perm (s.rows.filter filter.admits) := by
  rw [h.sorted_eq]
  exact List.mergeSort_perm _ _

/-- **The entries of a list ascend strictly.** -/
theorem Sound.before_sorted (h : s.Sound) (filter : Filter) (order : Order) :
    (s.sorted filter order).Pairwise (Entry.Before order) := by
  have hin : (s.sorted filter order).Pairwise fun a b => inOrder order a b = true := by
    rw [h.sorted_eq]
    exact List.pairwise_mergeSort (sorts_inOrder order).trans (sorts_inOrder order).total _
  have hids : ((s.sorted filter order).map (·.id)).Nodup :=
    ((h.sorted_perm filter order).map _).nodup_iff.2 ((List.filter_sublist.map _).nodup h.ids)
  exact (hin.and (List.pairwise_map.1 hids)).imp fun hab => before_of_inOrder hab.1 hab.2

/-- Each admitted entry is in a list once, and nothing else is in it. -/
theorem Sound.count_sorted (h : s.Sound) (filter : Filter) (order : Order) (e : Entry) :
    (s.sorted filter order).count e = if e ∈ s.rows ∧ filter.admits e then 1 else 0 := by
  have hnodup : (s.rows.filter filter.admits).Nodup :=
    (List.Nodup.of_map _ h.ids).filter _
  rw [(h.sorted_perm filter order).count_eq, hnodup.count]
  simp only [List.mem_filter]

/-! ### Pages -/

/-- The pages of a list that a reader is given from an offset on, who asks for the next page as long
as the last one was full. -/
inductive PagesFrom (s : Indexed) (filter : Filter) (order : Order) (size : Nat) :
    (offset : Nat) → List (List Entry) → Prop
  | last {offset : Nat} {page : List Entry}
      (h : (s.answer (.list { filter, order, limit := some size, offset })).1 = .ok page)
      (hshort : page.length < size) : PagesFrom s filter order size offset [page]
  | more {offset : Nat} {page : List Entry} {pages : List (List Entry)}
      (h : (s.answer (.list { filter, order, limit := some size, offset })).1 = .ok page)
      (hfull : page.length = size) (rest : PagesFrom s filter order size (offset + size) pages) :
      PagesFrom s filter order size offset (page :: pages)

theorem answer_page {page : List Entry} :
    (s.answer (.list { filter, order, limit := some size, offset })).1 = .ok page ↔
      ((s.sorted filter order).drop offset).take size = page :=
  ⟨Except.ok.inj, congrArg Except.ok⟩

namespace PagesFrom

variable {pages other : List (List Entry)}

/-- **What is on the pages** is the list from the offset on. -/
theorem flatten (h : s.PagesFrom filter order size offset pages) :
    pages.flatten = (s.sorted filter order).drop offset := by
  induction h with
  | last h hshort =>
      rw [← answer_page.1 h, List.length_take] at hshort
      rw [List.flatten_singleton, ← answer_page.1 h, List.take_of_length_le (by omega)]
  | more h hfull rest ih =>
      rw [List.flatten_cons, ih, ← answer_page.1 h, ← List.drop_drop, List.take_append_drop]

/-- There is one more page than the list fills. -/
theorem length_eq (h : s.PagesFrom filter order size offset pages) (hsize : 0 < size) :
    pages.length = ((s.sorted filter order).length - offset) / size + 1 := by
  induction h with
  | last h hshort =>
      rw [← answer_page.1 h, List.length_take, List.length_drop] at hshort
      rw [Nat.div_eq_of_lt (by omega), List.length_singleton]
  | @more offset _ _ h hfull rest ih =>
      rw [← answer_page.1 h, List.length_take, List.length_drop] at hfull
      have hle : size ≤ (s.sorted filter order).length - offset := by omega
      rw [List.length_cons, ih, Nat.div_eq_sub_div hsize hle, Nat.sub_sub]

/-- A reader is given the same pages each time, from any store that lists the same. -/
theorem unique (h : s.PagesFrom filter order size offset pages)
    (h' : s'.PagesFrom filter order size offset other)
    (heq : s.sorted filter order = s'.sorted filter order) : pages = other := by
  induction h generalizing other with
  | last h hshort =>
      cases h' with
      | last h' _ => rw [← answer_page.1 h, ← answer_page.1 h', heq]
      | more h' hfull _ =>
          rw [← answer_page.1 h, heq, answer_page.1 h'] at hshort
          omega
  | more h hfull rest ih =>
      cases h' with
      | last h' hshort =>
          rw [← answer_page.1 h, heq, answer_page.1 h'] at hfull
          omega
      | more h' _ rest' => rw [← answer_page.1 h, ← answer_page.1 h', heq, ih rest']

end PagesFrom

/-- **There is a last page**, as long as pages are not empty. -/
theorem exists_pagesFrom (s : Indexed) (filter : Filter) (order : Order) (hsize : 0 < size)
    (offset : Nat) : ∃ pages, s.PagesFrom filter order size offset pages := by
  induction hleft : (s.sorted filter order).length - offset using Nat.strongRecOn
    generalizing offset with
  | ind left ih =>
      have hpage := answer_page.2 (Eq.refl (((s.sorted filter order).drop offset).take size))
      by_cases hshort : (((s.sorted filter order).drop offset).take size).length < size
      · exact ⟨_, .last hpage hshort⟩
      · -- a full page leaves less of the list to read
        rw [List.length_take, List.length_drop] at hshort
        obtain ⟨pages, hpages⟩ := ih _ (by omega) (offset + size) rfl
        refine ⟨_, .more hpage ?_ hpages⟩
        rw [List.length_take, List.length_drop]
        omega

/-! ### The same entries -/

/-- **Stores that hold the same entries** hold them in one order. -/
theorem Sound.rows_eq (h : s.Sound) (h' : s'.Sound) (hmem : ∀ e, e ∈ s.rows ↔ e ∈ s'.rows) :
    s.rows = s'.rows := by
  have hperm : s.rows.Perm s'.rows :=
    (List.perm_ext_iff_of_nodup (.of_map _ h.ids) (.of_map _ h'.ids)).2 hmem
  refine hperm.eq_of_pairwise (fun a b _ _ hab hba => ?_) h.ascending h'.ascending
  exact absurd (Uuid.lt_trans hab hba) (Uuid.lt_irrefl _)

theorem sorted_congr (h : s.rows = s'.rows) (filter : Filter) (order : Order) :
    s.sorted filter order = s'.sorted filter order := by
  simp only [sorted, h]

/-- New entries with ids and tokens of their own are all taken. -/
theorem Sound.mem_after_creates (h : s.Sound) {es : List Entry} (hids : (es.map (·.id)).Nodup)
    (htokens : (es.map (·.token)).Nodup)
    (hnew : ∀ e ∈ es, ∀ r ∈ s.rows, r.token ≠ e.token ∧ r.id ≠ e.id) (x : Entry) :
    x ∈ (s.after (es.map .create)).rows ↔ x ∈ s.rows ∨ x ∈ es := by
  induction es generalizing s with
  | nil => simp [Indexed.after]
  | cons e es ih =>
      rw [List.map_cons, List.nodup_cons] at hids htokens
      obtain ⟨he, hes⟩ := List.forall_mem_cons.1 hnew
      rcases h.create_cases e with ⟨ht, hid, heq⟩ | ⟨⟨r, hr, htaken⟩, -⟩
      · have hrows : ∀ r, r ∈ insertRow e s.rows ↔ r = e ∨ r ∈ s.rows := fun r => by
          rw [(insertRow_perm e s.rows).mem_iff, List.mem_cons]
        have hnext : s.after ((e :: es).map .create)
            = Indexed.after ⟨insertRow e s.rows, (e.token, e.id) :: s.index⟩ (es.map .create) := by
          rw [List.map_cons, Indexed.after, List.foldl_cons, Indexed.answer, heq]
          rfl
        have hfree : ∀ e' ∈ es, ∀ r ∈ insertRow e s.rows, r.token ≠ e'.token ∧ r.id ≠ e'.id := by
          intro e' he' r hr
          rcases (hrows r).1 hr with rfl | hr
          · exact ⟨fun ht => htokens.1 (ht ▸ List.mem_map_of_mem he'),
              fun hid => hids.1 (hid ▸ List.mem_map_of_mem he')⟩
          · exact hes e' he' r hr
        rw [hnext, ih (h.create ht hid) hids.2 htokens.2 hfree, hrows, List.mem_cons, or_assoc,
          or_left_comm]
      · exact absurd htaken (not_or.2 (he r hr))

/-- **A list page by page**, after any calls.  A reader who asks for pages of a size until one is
not full is given the same pages each time.  Every stored entry that the filter admits is on them
once, and nothing else is; the entries ascend strictly from page to page; there are as many of them
as the store counts; and together they are the list that is given without a limit.  Nothing of this
depends on more than the entries that are stored, so not on the order in which they were created. -/
theorem pages_partition (calls : List Call) (filter : Filter) (order : Order) {size : Nat}
    (hsize : 1 ≤ size) :
    let s := empty.after calls
    ∃ pages, (s.PagesFrom filter order size 0 pages ∧
        ∀ other, s.PagesFrom filter order size 0 other → other = pages) ∧
      (∀ e, pages.flatten.count e = if e ∈ s.rows ∧ filter.admits e then 1 else 0) ∧
      pages.flatten.Pairwise (Entry.Before order) ∧
      (s.answer (.count filter)).1 = .ok pages.flatten.length ∧
      pages.length = pages.flatten.length / size + 1 ∧
      (s.answer (.list { filter, order })).1 = .ok pages.flatten ∧
      (∀ calls', (∀ e, e ∈ (empty.after calls').rows ↔ e ∈ s.rows) →
        (empty.after calls').PagesFrom filter order size 0 pages) ∧
      ∀ es es' : List Entry, calls = es.map .create → es.Perm es' → (es.map (·.id)).Nodup →
        (es.map (·.token)).Nodup →
          (empty.after (es'.map .create)).PagesFrom filter order size 0 pages := by
  intro s
  have h : s.Sound := sound_empty.after calls
  obtain ⟨pages, hpages⟩ := s.exists_pagesFrom filter order hsize 0
  have hflat : pages.flatten = s.sorted filter order := hpages.flatten
  have hsame : ∀ calls', (∀ e, e ∈ (empty.after calls').rows ↔ e ∈ s.rows) →
      (empty.after calls').PagesFrom filter order size 0 pages := by
    intro calls' hmem
    obtain ⟨other, hother⟩ := (empty.after calls').exists_pagesFrom filter order hsize 0
    have hsorted := sorted_congr ((sound_empty.after calls').rows_eq h hmem) filter order
    exact hother.unique hpages hsorted ▸ hother
  refine ⟨pages, ⟨hpages, fun other hother => hother.unique hpages rfl⟩, fun e => ?_, ?_, ?_, ?_,
    ?_, hsame, ?_⟩
  · rw [hflat, h.count_sorted]
  · rw [hflat]
    exact h.before_sorted filter order
  · rw [hflat, (h.sorted_perm filter order).length_eq, ← List.countP_eq_length_filter]
    rfl
  · rw [hflat, hpages.length_eq hsize, Nat.sub_zero]
  · rw [hflat]
    rfl
  · rintro es es' rfl hperm hids htokens
    refine hsame _ fun e => ?_
    have hids' : (es'.map (·.id)).Nodup := (hperm.map _).nodup_iff.1 hids
    have htokens' : (es'.map (·.token)).Nodup := (hperm.map _).nodup_iff.1 htokens
    have hin := sound_empty.mem_after_creates hids htokens (fun _ _ _ hr => nomatch hr) e
    have hin' := sound_empty.mem_after_creates hids' htokens' (fun _ _ _ hr => nomatch hr) e
    exact hin'.trans ((or_congr_right hperm.mem_iff.symm).trans hin.symm)

/-- Four entries of one instant, not in the order of their ids. -/
def twinEntries : List Entry :=
  [3, 1, 4, 2].map fun n => ⟨.ofNat n, n.repr, "locked", default, default, none, none⟩

/-- Four entries fill two pages of two, so the third page is the last. -/
theorem pages_partition_twinEntries : ∃ pages,
    (empty.after (twinEntries.map .create)).PagesFrom .all .created 2 0 pages ∧ pages.length = 3 ∧
      pages.flatten.map (·.id) = [.ofNat 1, .ofNat 2, .ofNat 3, .ofNat 4] ∧
      (empty.after (twinEntries.reverse.map .create)).PagesFrom .all .created 2 0 pages := by
  obtain ⟨pages, ⟨hpages, -⟩, -, -, -, hlen, hlist, -, hcreated⟩ :=
    pages_partition (twinEntries.map .create) .all .created (show 1 ≤ 2 by decide)
  have hflat : pages.flatten.map (·.id) = [.ofNat 1, .ofNat 2, .ofNat 3, .ofNat 4] := by
    have hrows : (((empty.after (twinEntries.map .create)).rows.filter Filter.all.admits).Pairwise
        fun a b => inOrder .created a b) := by decide +kernel
    have hlisted : pages.flatten = (empty.after (twinEntries.map .create)).rows :=
      (Except.ok.inj hlist).symm.trans (List.mergeSort_of_pairwise hrows)
    rw [hlisted]
    decide +kernel
  have hfour : pages.flatten.length = 4 := by
    rw [← List.length_map (·.id), hflat]
    rfl
  exact ⟨pages, hpages, by rw [hlen, hfour], hflat, hcreated twinEntries _ rfl
    (List.reverse_perm _).symm (by decide +kernel) (by decide +kernel)⟩

end Store.Indexed

end Strongbox
