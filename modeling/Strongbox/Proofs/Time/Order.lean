import Mathlib.Tactic.ByContra
import Strongbox.Proofs.Time.Column

/-!
# Time — the order of instants and of their texts

* `Date.before_ofDay`: dates ascend with the days, year before month before day of the month.
* `Instant.columnText_lt_iff`: in the years 0 to 9999 the column texts of instants sort like the
  instants cut to whole microseconds.
* `Instant.columnText_inj`: and they are equal only where those are.
-/

namespace Strongbox

/-! ### Dates -/

namespace Date

/-- Year by year, the days before a year that starts in March grow by 365 or more. -/
theorem beforeMarch_gap {y y' : Int} (h : y < y') : beforeMarch y + 365 ≤ beforeMarch y' := by
  simp only [beforeMarch]
  omega

/-- The years that start in March, and the days within them, ascend with the days. -/
theorem marchYear_lex {z z' : Int} (h : z < z') : (marchYear z).1 < (marchYear z').1 ∨
    ((marchYear z).1 = (marchYear z').1 ∧ (marchYear z).2 < (marchYear z').2) := by
  obtain ⟨hk, he⟩ := beforeMarch_marchYear z
  obtain ⟨hk', he'⟩ := beforeMarch_marchYear z'
  rcases Int.lt_trichotomy (marchYear z).1 (marchYear z').1 with hlt | heq | hgt
  · exact .inl hlt
  · rw [heq] at he
    exact .inr ⟨heq, by omega⟩
  · have := beforeMarch_gap hgt
    omega

/-- The first date comes before the second: by year, then by month, then by day. -/
def Before (d d' : Date) : Prop :=
  d.year < d'.year ∨ (d.year = d'.year ∧
    (d.month < d'.month ∨ (d.month = d'.month ∧ d.day < d'.day)))

theorem before_ofMarch {y y' : Int} {k k' : Nat} (hk : k ≤ 365) (hk' : k' ≤ 365)
    (h : y < y' ∨ (y = y' ∧ k < k')) : (ofMarch y k).Before (ofMarch y' k') := by
  -- January and February belong to the next year of the calendar
  simp only [Before, ofMarch]
  split <;> split <;> (simp only []; omega)

/-- **Dates ascend with the days.** -/
theorem before_ofDay {n n' : Int} (h : n < n') : (ofDay n).Before (ofDay n') :=
  before_ofMarch (beforeMarch_marchYear _).1 (beforeMarch_marchYear _).1
    (marchYear_lex (by omega))

end Date

namespace Instant

/-! ### Instants -/

theorem lt_iff {a b : Instant} :
    a < b ↔ a.second < b.second ∨ (a.second = b.second ∧ a.nano < b.nano) := by
  change a.before b = true ↔ _
  simp only [before, decide_eq_true_eq]

theorem lt_of_not_lt {a b : Instant} (h : ¬ a < b) (hne : a ≠ b) : b < a := by
  rw [lt_iff] at h ⊢
  by_cases hs : a.second = b.second
  · have : a.nano ≠ b.nano := fun hn => hne (eq_of_parts hs hn)
    omega
  · omega

/-- The first time of day comes before the second by hour, minute, second and microsecond. -/
def Clock.Before (c c' : Clock) : Prop :=
  c.hour < c'.hour ∨ (c.hour = c'.hour ∧ (c.minute < c'.minute ∨ (c.minute = c'.minute ∧
    (c.second < c'.second ∨ (c.second = c'.second ∧ c.nano / 1000 < c'.nano / 1000)))))

/-- Within a day the times of day ascend with the instants, a leap second included. -/
theorem before_clock {t u : Instant} (hd : t.second / 86400 = u.second / 86400)
    (h : t.floorMicros < u.floorMicros) : t.clock.Before u.clock := by
  have ht := clock_bounds t
  have hu := clock_bounds u
  rw [lt_iff] at h
  simp only [floorMicros] at h
  simp only [Clock.Before]
  rcases clock_seconds t with ⟨h60, hn, hs⟩ | ⟨h60, hn, hs⟩ <;>
    rcases clock_seconds u with ⟨h60', hn', hs'⟩ | ⟨h60', hn', hs'⟩ <;>
      omega

/-! ### Their texts -/

theorem dateText_append_lt {d d' : Date} {r r' : List Char} (hv : d.isValid = true)
    (hv' : d'.isValid = true) (hy : 0 ≤ d.year ∧ d.year ≤ 9999) (hy' : 0 ≤ d'.year ∧ d'.year ≤ 9999)
    (h : d.Before d' ∨ (d = d' ∧ r < r')) : dateText d ++ r < dateText d' ++ r' := by
  have hm := Date.month_lt hv
  have hm' := Date.month_lt hv'
  have hlex : d.year.toNat < d'.year.toNat ∨ (d.year.toNat = d'.year.toNat ∧
      (d.month < d'.month ∨ (d.month = d'.month ∧
        (d.day < d'.day ∨ (d.day = d'.day ∧ r < r'))))) := by
    rcases h with h | ⟨rfl, hr⟩
    · simp only [Date.Before] at h
      omega
    · simp [hr]
  simp only [dateText, yearText, if_pos hy, if_pos hy', List.append_assoc, List.cons_append]
  refine Text.decimal_append_lt (by omega) (by omega) (hlex.imp_right (.imp_right fun h₁ => ?_))
  refine List.cons_lt_cons_self.2 (Text.decimal_append_lt (by omega) (by omega)
    (h₁.imp_right (.imp_right fun h₂ => ?_)))
  exact List.cons_lt_cons_self.2 (Text.decimal_append_lt (by omega) (by omega) h₂)

theorem clockText_append_lt {t u : Instant} (h : t.clock.Before u.clock) :
    clockText t.clock ++ '.' :: (Text.decimal 6 (t.clock.nano / 1000) ++ ['Z'])
      < clockText u.clock ++ '.' :: (Text.decimal 6 (u.clock.nano / 1000) ++ ['Z']) := by
  have ht := clock_bounds t
  have hu := clock_bounds u
  simp only [clockText, List.append_assoc, List.cons_append]
  refine Text.decimal_append_lt (by omega) (by omega) (h.imp_right (.imp_right fun h₁ => ?_))
  refine List.cons_lt_cons_self.2 (Text.decimal_append_lt (by omega) (by omega)
    (h₁.imp_right (.imp_right fun h₂ => ?_)))
  refine List.cons_lt_cons_self.2 (Text.decimal_append_lt (by omega) (by omega)
    (h₂.imp_right (.imp_right fun h₃ => ?_)))
  exact List.cons_lt_cons_self.2 (Text.decimal_append_lt (by omega) (by omega) (.inl h₃))

@[simp] theorem floorMicros_floorMicros (t : Instant) :
    t.floorMicros.floorMicros = t.floorMicros := by
  refine eq_of_parts rfl ?_
  simp only [floorMicros]
  omega

/-- The column text shows an instant to the microsecond only. -/
@[simp] theorem columnText_floorMicros (t : Instant) : t.floorMicros.columnText = t.columnText := by
  have hd : t.floorMicros.date = t.date := rfl
  have hc : ∀ c : Clock, clockText { c with nano := c.nano / 1000 * 1000 } = clockText c :=
    fun _ => rfl
  have hn : t.clock.nano / 1000 * 1000 / 1000 = t.clock.nano / 1000 := by omega
  simp only [columnText, hd, clock_floorMicros, hc, hn]

theorem columnText_lt {t u : Instant} (ht : t.Fits) (hu : u.Fits)
    (h : t.floorMicros < u.floorMicros) : t.columnText < u.columnText := by
  have hv : t.date.isValid = true := Date.isValid_ofDay _
  have hv' : u.date.isValid = true := Date.isValid_ofDay _
  have hday : t.second / 86400 ≤ u.second / 86400 := by
    rw [lt_iff] at h
    simp only [floorMicros] at h
    omega
  rw [String.lt_iff, columnText, columnText, String.toList_ofList, String.toList_ofList]
  simp only [List.append_assoc, List.cons_append]
  refine dateText_append_lt hv hv' ht hu ?_
  rcases Int.lt_or_eq_of_le hday with hlt | heq
  · exact .inl (Date.before_ofDay hlt)
  · refine .inr ⟨congrArg Date.ofDay heq, List.cons_lt_cons_self.2 ?_⟩
    exact clockText_append_lt (before_clock heq h)

/-- Column texts are equal where the instants agree to the microsecond. -/
theorem columnText_inj {t u : Instant} (ht : t.Fits) (hu : u.Fits) :
    t.columnText = u.columnText ↔ t.floorMicros = u.floorMicros := by
  constructor
  · intro h
    have hr := read?_columnText ht
    rw [h, read?_columnText hu] at hr
    exact (Option.some.inj hr).symm
  · intro h
    rw [← columnText_floorMicros t, h, columnText_floorMicros]

/-- **Column texts sort like the instants** cut to whole microseconds. -/
theorem columnText_lt_iff {t u : Instant} (ht : t.Fits) (hu : u.Fits) :
    t.columnText < u.columnText ↔ t.floorMicros < u.floorMicros := by
  refine ⟨fun h => ?_, columnText_lt ht hu⟩
  by_contra hn
  by_cases he : t.floorMicros = u.floorMicros
  · rw [(columnText_inj ht hu).2 he] at h
    exact String.lt_irrefl _ h
  · exact String.lt_irrefl _ (String.lt_trans h (columnText_lt hu ht (lt_of_not_lt hn he)))

end Instant

end Strongbox
