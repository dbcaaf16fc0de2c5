import Strongbox.Proofs.Store.Listed

/-!
# Store — instants in a column

A table keeps an instant as a text of one width, cut to whole microseconds.  The texts of instants
in the years 0 to 9999 sort by their bytes as the instants do, before 1970 and in leap seconds too,
so a table that sorts the text of its entries' creation sorts the entries by time.

* `Instant.length_columnText`: the width of the text.
* `Instant.le_floorMicros_iff`: cutting an instant goes back to the last whole microsecond.
* `Table.pairwise_list_created`: what a table lists by creation.
* `columnText_keeps`: all of it together.
-/

namespace Strongbox

namespace Instant

/-! ### The width of a text -/

theorem toNat_lt_of_mem_decimal {width n : Nat} {c : Char} (h : c ∈ Text.decimal width n) :
    c.toNat < 128 := by
  have hd := Text.isDigit_of_mem_decimal h
  rw [Text.isDigit, Text.digit?] at hd
  split at hd
  · rename_i hc
    have hle : c.toNat ≤ 57 := hc.2
    omega
  · cases hd

/-- An instant with a year of four digits is written in 27 bytes. -/
theorem length_columnText {t : Instant} (h : t.Fits) : (Bytes.ofText t.columnText).length = 27 := by
  have hyear : yearText t.date.year = Text.decimal 4 t.date.year.toNat := if_pos h
  rw [Bytes.length_ofText]
  · simp [columnText, dateText, clockText, hyear]
  · have hdigits : ∀ width n, (∀ c ∈ Text.decimal width n, c.toNat < 128) ↔ True :=
      fun _ _ => iff_true_intro fun _ => toNat_lt_of_mem_decimal
    simp [columnText, dateText, clockText, hyear, List.forall_mem_append, List.forall_mem_cons,
      hdigits, -List.mem_append, -List.mem_cons]

/-! ### Whole microseconds -/

/-- **Cutting goes back to the last whole microsecond**: of the instants of whole microseconds,
those that do not come after an instant are those that do not come after its cut. -/
theorem le_floorMicros_iff {t u : Instant} (h : u.nano % 1000 = 0) :
    ¬ t.floorMicros < u ↔ ¬ t < u := by
  rw [lt_iff, lt_iff]
  simp only [floorMicros]
  omega

end Instant

namespace Store

/-- The creation that a row tells is read back, cut to whole microseconds. -/
theorem Row.Spells.created_eq {r : Row} {e : Entry} {made : Instant} (h : r.Spells e)
    (hfits : made.Fits) (hcell : r.created = some made.columnText) :
    e.created = made.floorMicros := by
  obtain ⟨text, htext, he⟩ := h.created
  obtain rfl := Option.some.inj (hcell.symm.trans htext)
  exact Option.some.inj (he.symm.trans (Instant.read?_columnText hfits))

/-- **What a table lists by creation** stands in the order of time, if its rows tell their creation
by instants of the years 0 to 9999. -/
theorem Table.pairwise_list_created {t : Table} {q : Query} {es : List Entry}
    (ho : q.order = .created)
    (hrows : ∀ r ∈ t.rows, ∃ made : Instant, made.Fits ∧ r.created = some made.columnText)
    (h : t.list q = .ok es) : es.Pairwise fun a b => ¬ b.created < a.created := by
  refine pairwise_list (fun {r r' e e'} hr hr' he he' hin => ?_) h
  obtain ⟨made, hfits, hcell⟩ := hrows r hr
  obtain ⟨made', hfits', hcell'⟩ := hrows r' hr'
  rw [he.created_eq hfits hcell, he'.created_eq hfits' hcell',
    ← Instant.columnText_lt_iff hfits' hfits]
  rw [ho, inOrder, hcell, hcell', cellBefore, cellBefore, Bool.or_eq_true, Bool.and_eq_true,
    Bool.not_eq_true', decide_eq_true_eq, decide_eq_false_iff_not] at hin
  exact hin.elim String.lt_asymm (·.1)

/-- **Columns of text keep instants and their order.**  An instant of the years 0 to 9999 is written
in 27 bytes and read back cut to the last whole microsecond, by the reader of every column; and what
is read back is written with the same text again.  Texts come before one another as the instants do
that are read back, so a table that lists by creation lists in the order of time. -/
theorem columnText_keeps {a b : Instant} (ha : 0 ≤ a.date.year ∧ a.date.year ≤ 9999)
    (hb : 0 ≤ b.date.year ∧ b.date.year ≤ 9999) :
    (Bytes.ofText a.columnText).length = 27 ∧
    (∀ column, Row.required column Instant.read? (some a.columnText) = .ok a.floorMicros ∧
      Row.optional column Instant.read? (some a.columnText) = .ok (some a.floorMicros)) ∧
    (a.floorMicros.nano % 1000 = 0 ∧
      ∀ u : Instant, u.nano % 1000 = 0 → (¬ a.floorMicros < u ↔ ¬ a < u)) ∧
    (Bytes.ofText a.columnText < Bytes.ofText b.columnText ↔ a.floorMicros < b.floorMicros) ∧
    (∀ t, Instant.read? a.columnText = some t → t.columnText = a.columnText) ∧
    ∀ (t : Table) (q : Query) (es : List Entry), q.order = .created →
      (∀ r ∈ t.rows, ∃ made : Instant, (0 ≤ made.date.year ∧ made.date.year ≤ 9999) ∧
        r.created = some made.columnText) →
      (t.answer (.list q)).1 = .ok es → es.Pairwise fun e e' => ¬ e'.created < e.created := by
  have hread : Instant.read? a.columnText = some a.floorMicros := Instant.read?_columnText ha
  refine ⟨Instant.length_columnText ha, fun column => ⟨?_, ?_⟩,
    ⟨Nat.mul_mod_left _ _, fun _ => Instant.le_floorMicros_iff⟩, ?_, fun t ht => ?_,
    fun t q es ho hrows h => Table.pairwise_list_created ho hrows h⟩
  · exact (Row.required_columnText column a).trans (if_pos ha)
  · rw [Row.optional, hread]
  · rw [Bytes.ofText_lt_iff, Instant.columnText_lt_iff ha hb]
  · obtain rfl := Option.some.inj (hread.symm.trans ht)
    exact Instant.columnText_floorMicros a

/-- The last nanosecond before 1970, in a leap second. -/
def leapSecond : Instant := ⟨-1, 1999999999, by decide, by decide⟩

/-- The leap second before 1970 comes before the first second of that year. -/
theorem columnText_keeps_leapSecond :
    (0 ≤ leapSecond.date.year ∧ leapSecond.date.year ≤ 9999) ∧
      leapSecond.columnText = "1969-12-31T23:59:60.999999Z" ∧
      (Bytes.ofText leapSecond.columnText).length = 27 ∧
      Bytes.ofText leapSecond.columnText < Bytes.ofText (Instant.ofSecond 0).columnText := by
  have hyear : 0 ≤ leapSecond.date.year ∧ leapSecond.date.year ≤ 9999 := by decide
  obtain ⟨hlen, -, -, hlt, -⟩ := columnText_keeps hyear (b := Instant.ofSecond 0) (by decide)
  exact ⟨hyear, by decide +kernel, hlen, hlt.2 (by decide)⟩

end Store

end Strongbox
