import Strongbox.Proofs.Store.Arranged
import Strongbox.Proofs.Store.Table

/-!
# Store — what a table without a schema lists

A table without a schema may hold any text in any cell, the same id twice, or nothing where a value
is required.  A list reads the rows of its window one after another and each row from left to
right, and stops at the first cell that does not read; it leaves no row out and fills nothing in.

* `Row.ReadsAt`: the column of a row reads; `Row.FirstBad`: the leftmost one that does not.
* `Row.Spells`: the entry that a row holds, cell by cell.
* `readRow_eq_ok`, `readRow_eq_error`: a row read from left to right.
* `Told`: what is answered of the rows of a window; `Told.unique`: nothing else is.
* `Table.pairwise_list`: what rows have in their order, the entries listed from them have.
* `Table.list_told`: the answer to every list of any table.
-/

namespace Strongbox.Store

/-! ### Rows -/

namespace Row

/-- The column numbered `column` reads: the id, the token, the locked text and the first two
instants must be there, the last two need not be. -/
def ReadsAt (r : Row) : Nat → Prop
  | 0 => ∃ text ∈ r.id, ∃ id, Uuid.read? text = some id
  | 1 => ∃ token, r.token = some token
  | 2 => ∃ locked, r.locked = some locked
  | 3 => ∃ text ∈ r.created, ∃ t, Instant.read? text = some t
  | 4 => ∃ text ∈ r.updated, ∃ t, Instant.read? text = some t
  | 5 => ∀ text ∈ r.expires, ∃ t, Instant.read? text = some t
  | 6 => ∀ text ∈ r.hidden, ∃ t, Instant.read? text = some t
  | _ => True

/-- The leftmost column that does not read. -/
structure FirstBad (r : Row) (column : Nat) : Prop where
  bad : ¬ r.ReadsAt column
  left : ∀ i < column, r.ReadsAt i

/-- The row holds the entry, cell by cell. -/
structure Spells (r : Row) (e : Entry) : Prop where
  id : ∃ text ∈ r.id, Uuid.read? text = some e.id
  token : r.token = some e.token
  locked : r.locked = some e.locked
  created : ∃ text ∈ r.created, Instant.read? text = some e.created
  updated : ∃ text ∈ r.updated, Instant.read? text = some e.updated
  expires : r.expires.map Instant.read? = e.expires.map some
  hidden : r.hidden.map Instant.read? = e.hidden.map some

theorem FirstBad.unique {r : Row} {column column' : Nat} (h : r.FirstBad column)
    (h' : r.FirstBad column') : column = column' := by
  rcases Nat.lt_trichotomy column column' with hlt | heq | hlt
  · exact absurd (h'.left column hlt) h.bad
  · exact heq
  · exact absurd (h.left column' hlt) h'.bad

/-! ### Reading a row -/

section

variable {α β : Type} {column : Nat} {read : String → Option α} {c : Cell} {r : Row}

theorem optional_eq_ok {a : Option α} :
    optional column read c = .ok a ↔ c.map read = a.map some := by
  cases c with
  | none => cases a <;> simp [optional]
  | some text => cases a <;> cases h : read text <;> simp [optional, h]

/-- The part of a row from a column on is read: an error is the leftmost column that does not read,
if all columns before do. -/
def Walks (r : Row) (column : Nat) (x : Except Nat β) : Prop :=
  (∀ i < column, r.ReadsAt i) →
    ((∃ b, x = .ok b) ∧ ∀ i, r.ReadsAt i) ∨ ∃ i, x = .error i ∧ r.FirstBad i

/-- **One column**, and then the rest of the row if it reads. -/
theorem Walks.bind {x : Except Nat α} {f : α → Except Nat β}
    (hx : (∃ a, x = .ok a) ∧ r.ReadsAt column ∨ x = .error column ∧ ¬ r.ReadsAt column)
    (hf : ∀ a, Walks r (column + 1) (f a)) : Walks r column (x >>= f) := by
  intro hleft
  rcases hx with ⟨⟨a, rfl⟩, hreads⟩ | ⟨rfl, hbad⟩
  · refine hf a fun i hi => ?_
    rcases Nat.lt_succ_iff_lt_or_eq.1 hi with hlt | rfl
    · exact hleft i hlt
    · exact hreads
  · exact .inr ⟨column, rfl, hbad, hleft⟩

/-- After the last column there is nothing left to read. -/
theorem walks_end (r : Row) (b : β) : Walks r 7 (.ok b) := by
  intro hleft
  refine .inl ⟨⟨b, rfl⟩, fun i => ?_⟩
  by_cases hi : i < 7
  · exact hleft i hi
  · match i, hi with
    | i + 7, _ => trivial

theorem required_reads (column : Nat) (read : String → Option α) (c : Cell) :
    (∃ a, required column read c = .ok a) ∧ (∃ text ∈ c, ∃ a, read text = some a) ∨
      required column read c = .error column ∧ ¬ ∃ text ∈ c, ∃ a, read text = some a := by
  cases c with
  | none => exact .inr ⟨rfl, nofun⟩
  | some text => cases h : read text <;> simp [required, h]

theorem required_text (column : Nat) (c : Cell) :
    (∃ a, required column some c = .ok a) ∧ (∃ text, c = some text) ∨
      required column some c = .error column ∧ ¬ ∃ text, c = some text := by
  cases c with
  | none => exact .inr ⟨rfl, nofun⟩
  | some text => exact .inl ⟨⟨text, rfl⟩, text, rfl⟩

theorem optional_reads (column : Nat) (read : String → Option α) (c : Cell) :
    (∃ a, optional column read c = .ok a) ∧ (∀ text ∈ c, ∃ a, read text = some a) ∨
      optional column read c = .error column ∧ ¬ ∀ text ∈ c, ∃ a, read text = some a := by
  cases c with
  | none => exact .inl ⟨⟨none, rfl⟩, nofun⟩
  | some text => cases h : read text <;> simp [optional, h]

end

/-- A row is read from left to right. -/
theorem walks_read (r : Row) : Walks r 0 r.read :=
  .bind (required_reads 0 Uuid.read? r.id) fun _ =>
  .bind (required_text 1 r.token) fun _ =>
  .bind (required_text 2 r.locked) fun _ =>
  .bind (required_reads 3 Instant.read? r.created) fun _ =>
  .bind (required_reads 4 Instant.read? r.updated) fun _ =>
  .bind (optional_reads 5 Instant.read? r.expires) fun _ =>
  .bind (optional_reads 6 Instant.read? r.hidden) fun _ => walks_end r _

/-- A row reads as an entry if it holds that entry, cell by cell. -/
theorem read_eq_ok_iff {r : Row} {e : Entry} : r.read = .ok e ↔ r.Spells e := by
  simp only [read_eq_ok, required_eq_ok, optional_eq_ok, Option.bind_eq_some_iff, Option.some.injEq,
    exists_eq_right]
  constructor
  · rintro ⟨hid, htoken, hlocked, hcreated, hupdated, hexpires, hhidden⟩
    exact ⟨hid, htoken, hlocked, hcreated, hupdated, hexpires, hhidden⟩
  · rintro ⟨hid, htoken, hlocked, hcreated, hupdated, hexpires, hhidden⟩
    exact ⟨hid, htoken, hlocked, hcreated, hupdated, hexpires, hhidden⟩

/-- The error is the leftmost column that does not read. -/
theorem read_eq_error_iff {r : Row} {column : Nat} :
    r.read = .error column ↔ r.FirstBad column := by
  rcases walks_read r nofun with ⟨⟨e, he⟩, hreads⟩ | ⟨i, hi, hbad⟩
  · rw [he]
    exact ⟨nofun, fun h => absurd (hreads column) h.bad⟩
  · rw [hi, Except.error.injEq]
    exact ⟨fun h => h ▸ hbad, fun h => hbad.unique h⟩

/-- A row holds an entry if every column reads. -/
theorem exists_spells_iff {r : Row} : (∃ e, r.Spells e) ↔ ∀ column, r.ReadsAt column := by
  simp only [← read_eq_ok_iff]
  rcases walks_read r nofun with ⟨he, hreads⟩ | ⟨i, hi, hbad⟩
  · exact ⟨fun _ => hreads, fun _ => he⟩
  · rw [hi]
    exact ⟨nofun, fun h => absurd (h i) hbad.bad⟩

theorem readRow_eq_ok {r : Row} {e : Entry} : Table.readRow r = .ok e ↔ r.Spells e := by
  rw [← read_eq_ok_iff, Table.readRow]
  cases r.read <;> simp [Except.mapError]

theorem readRow_eq_error {r : Row} {error : StoreError} :
    Table.readRow r = .error error ↔
      ∃ column, r.FirstBad column ∧ error = .unreadable (some column) := by
  simp only [← read_eq_error_iff, Table.readRow]
  cases r.read <;> simp [Except.mapError, eq_comm]

end Row

/-! ### Rows one after another -/

/-- What is answered of the rows of a window: all of them in order, if all read, and otherwise the
leftmost bad column of the first row that does not. -/
structure Told (rows : List Row) (reply : Except StoreError (List Entry)) : Prop where
  given : (∃ es, reply = .ok es) ↔ ∀ r ∈ rows, ∀ column, r.ReadsAt column
  entries : ∀ es, reply = .ok es ↔ List.Forall₂ Row.Spells rows es
  failed : ∀ error, reply = .error error ↔ ∃ front r back column,
    rows = front ++ r :: back ∧ (∀ a ∈ front, ∀ i, a.ReadsAt i) ∧ r.FirstBad column ∧
      error = .unreadable (some column)

/-- **The rows of a window are read one after another.** -/
theorem told_mapM (rows : List Row) : Told rows (rows.mapM Table.readRow) where
  given := by
    simp only [mapM_eq_ok_iff, Row.readRow_eq_ok, ← Row.exists_spells_iff]
    -- row by row: a list of entries is there iff each row has its entry
    induction rows with
    | nil => exact ⟨fun _ => nofun, fun _ => ⟨[], .nil⟩⟩
    | cons r rows ih =>
        rw [List.forall_mem_cons, ← ih]
        constructor
        · rintro ⟨_, hr | ⟨hr, hrows⟩⟩
          exact ⟨⟨_, hr⟩, _, hrows⟩
        · rintro ⟨⟨e, he⟩, es, hes⟩
          exact ⟨e :: es, .cons he hes⟩
  entries es := by
    simp only [mapM_eq_ok_iff, Row.readRow_eq_ok]
  failed error := by
    simp only [mapM_eq_error_iff, Row.readRow_eq_ok, Row.exists_spells_iff, Row.readRow_eq_error]
    constructor
    · rintro ⟨front, r, back, hrows, hfront, column, hbad, he⟩
      exact ⟨front, r, back, column, hrows, hfront, hbad, he⟩
    · rintro ⟨front, r, back, column, hrows, hfront, hbad, he⟩
      exact ⟨front, r, back, hrows, hfront, column, hbad, he⟩

/-- The rows of a window have one answer. -/
theorem Told.unique {rows : List Row} {a b : Except StoreError (List Entry)} (ha : Told rows a)
    (hb : Told rows b) : a = b := by
  cases h : a with
  | ok es => exact ((hb.entries es).2 ((ha.entries es).1 h)).symm
  | error error => exact ((hb.failed error).2 ((ha.failed error).1 h)).symm

namespace Table

/-- The window that a table cuts for a query, which takes limits and offsets up to a bound. -/
def cut (q : Query) (rows : List Row) : List Row :=
  window (min q.offset greatestBound) (q.limit.map (min · greatestBound)) rows

/-- The bound is not in the way as long as there are no more rows than it can number. -/
theorem cut_eq_window {q : Query} {rows : List Row} (h : rows.length ≤ greatestBound) :
    cut q rows = window q.offset q.limit rows :=
  window_min (.inl h)

/-- However the rows that a filter takes are arranged, a table reads the window of them. -/
theorem list_of_arranged {t : Table} {q : Query} {sorted : List Row}
    (h : Arranged q.order (t.rows.filter (·.Meets q.filter)) sorted) :
    t.list q = (cut q sorted).mapM readRow := by
  obtain rfl := (arranged_mergeSort _ _).unique h
  have htaken : t.rows.filter (admits q.filter) = t.rows.filter (·.Meets q.filter) :=
    List.filter_congr fun r _ => Row.admits_eq_decide q.filter r
  rw [list, pick, htaken, cut]

/-- What rows have in the order of a query, the entries have that are listed from them. -/
theorem pairwise_list {t : Table} {q : Query} {es : List Entry} {R : Entry → Entry → Prop}
    (hR : ∀ {r r' e e'}, r ∈ t.rows → r' ∈ t.rows → r.Spells e → r'.Spells e' →
      inOrder q.order r r' = true → R e e')
    (h : t.list q = .ok es) : es.Pairwise R := by
  have hsorted : (t.pick q).Pairwise fun a b => inOrder q.order a b = true :=
    (List.pairwise_mergeSort (sorts_inOrder q.order).trans (sorts_inOrder q.order).total
      _).sublist (window_sublist _ _ _)
  have hmem : ∀ {r}, r ∈ t.pick q → r ∈ t.rows := fun hr =>
    (List.mem_filter.1 (List.mem_mergeSort.1 (mem_of_mem_window hr))).1
  exact pairwise_of_forall₂ (mapM_eq_ok_iff.1 h) hsorted fun hr hr' he he' =>
    hR (hmem hr) (hmem hr') (Row.readRow_eq_ok.1 he) (Row.readRow_eq_ok.1 he')

/-- **What a table lists.**  The rows that the filter takes by their text are arranged by their
text, a window is cut out of them, and the rows of the window are read one after another.  The
answer depends on these rows alone: it is that of any other table with the same rows there. -/
theorem list_told (t : Table) (q : Query) :
    (∀ r : Row, r.Meets q.filter ↔ r.Fulfils q.filter) ∧
      ∃ sorted, Arranged q.order (t.rows.filter (·.Meets q.filter)) sorted ∧
        (∀ other, Arranged q.order (t.rows.filter (·.Meets q.filter)) other → other = sorted) ∧
        (sorted.length ≤ greatestBound → cut q sorted = window q.offset q.limit sorted) ∧
        Told (cut q sorted) (t.answer (.list q)).1 ∧
        (∀ (t' : Table) (other : List Row),
          Arranged q.order (t'.rows.filter (·.Meets q.filter)) other →
            cut q other = cut q sorted → (t'.answer (.list q)).1 = (t.answer (.list q)).1) ∧
        (t.answer (.list q)).2 = t := by
  obtain ⟨sorted, harr⟩ : ∃ sorted, Arranged q.order (t.rows.filter (·.Meets q.filter)) sorted :=
    ⟨_, arranged_mergeSort _ _⟩
  have htold : Told (cut q sorted) (t.answer (.list q)).1 := by
    rw [answer, list_of_arranged harr]
    exact told_mapM _
  refine ⟨fun _ => Row.meets_iff, sorted, harr, fun other h => h.unique harr, cut_eq_window, htold,
    ?_, rfl⟩
  intro t' other hother hcut
  rw [answer, answer, list_of_arranged hother, list_of_arranged harr, hcut]

end Table

end Strongbox.Store
