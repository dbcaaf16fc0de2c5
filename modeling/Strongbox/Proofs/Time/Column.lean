import Strongbox.Proofs.Text.Numeral
import Strongbox.Store.Row

/-!
# Time — instants as column text, read back

* `Date.isValid_ofDay`: the date of a day is one of the calendar.
* `Instant.ofCivil?_civil`: date and time of day tell the instant.
* `Instant.read?_columnText`: an instant of the years 0 to 9999 is read back from its column text,
  cut to whole microseconds.
* `Instant.read?_columnText_eq_none`: the column text of any other instant is not read back.
-/

namespace Strongbox

/-! ### The calendar -/

namespace Date

/-- The last day of a year that starts in March is there only before a leap day. -/
theorem isLeap_of_marchYear {z : Int} (h : (marchYear z).2 = 365) :
    isLeap ((marchYear z).1 + 1) = true := by
  simp only [marchYear] at h ⊢
  simp only [isLeap, Bool.and_eq_true, Bool.or_eq_true, decide_eq_true_eq]
  split at h <;> split at h <;> simp_all only [if_true, if_false] <;> omega

theorem isValid_iff {d : Date} :
    d.isValid = true ↔ 1 ≤ d.day ∧ d.day ≤ monthLength d.year d.month := by
  simp [isValid]

theorem monthLength_of_ne {year : Int} {month : Nat} (h : month ≠ 2) (hm : 1 ≤ month ∧ month ≤ 12) :
    monthLength year month
      = if month = 4 ∨ month = 6 ∨ month = 9 ∨ month = 11 then 30 else 31 := by
  simp [monthLength, h, hm]

theorem isValid_ofMarch {year : Int} {k : Nat} (hk : k ≤ 365)
    (h : k = 365 → isLeap (year + 1) = true) : (ofMarch year k).isValid = true := by
  rw [ofMarch, isValid_iff]
  split
  · refine ⟨by simp only []; omega, ?_⟩
    rw [monthLength_of_ne (by simp only []; omega) (by simp only []; omega)]
    simp only []
    split <;> omega
  · -- only February is shorter in some years than in others
    refine ⟨by simp only []; omega, ?_⟩
    by_cases h2 : (5 * k + 2) / 153 - 9 = 2
    · simp only [h2, monthLength, if_true]
      split
      · omega
      · have : k ≠ 365 := fun e => absurd (h e) (by assumption)
        omega
    · rw [monthLength_of_ne h2 (by omega)]
      simp only []
      split <;> omega

/-- The date of a day is one of the calendar. -/
theorem isValid_ofDay (n : Int) : (ofDay n).isValid = true :=
  isValid_ofMarch (beforeMarch_marchYear _).1 isLeap_of_marchYear

theorem month_lt {d : Date} (h : d.isValid = true) : d.month < 13 ∧ d.day < 32 := by
  have hd := isValid_iff.1 h
  by_cases hm : 1 ≤ d.month ∧ d.month ≤ 12
  · by_cases h2 : d.month = 2
    · rw [h2, monthLength, if_pos rfl] at hd
      split at hd <;> omega
    · rw [monthLength_of_ne h2 hm] at hd
      split at hd <;> omega
  · have : monthLength d.year d.month = 0 := by
      simp only [monthLength, List.mem_cons, List.not_mem_nil, or_false]
      rw [if_neg (by omega), if_neg (by omega), if_neg hm]
    omega

end Date

namespace Instant

/-! ### Civil time -/

theorem eq_of_parts {a b : Instant} (hs : a.second = b.second) (hn : a.nano = b.nano) :
    a = b := by
  cases a
  cases b
  cases hs
  cases hn
  rfl

theorem clock_bounds (t : Instant) :
    t.clock.hour ≤ 23 ∧ t.clock.minute ≤ 59 ∧ t.clock.second ≤ 60 ∧ t.clock.nano < 1000000000 := by
  have hn := t.nano_lt
  simp only [clock]
  split <;> (simp only []; omega)

/-- The seconds of a day make up its time of day; the second 60 stands for a leap second. -/
theorem clock_seconds (t : Instant) :
    (t.clock.second = 60 ∧ t.nano = t.clock.nano + 1000000000 ∧
        t.second % 86400 = 60 * (60 * t.clock.hour + t.clock.minute) + 59) ∨
      (t.clock.second ≠ 60 ∧ t.nano = t.clock.nano ∧
        t.second % 86400 = 60 * (60 * t.clock.hour + t.clock.minute) + t.clock.second) := by
  have hn := t.nano_lt
  have hl := t.last_of_leap
  by_cases hlt : t.nano < 1000000000
  · right
    simp only [clock, hlt, if_true]
    exact ⟨by omega, trivial, by omega⟩
  · left
    simp only [clock, hlt, if_false]
    omega

theorem accepted_eq {u t : Instant} (e : u = t)
    (h : firstYear ≤ t.date.year ∧ t.date.year ≤ lastYear) :
    (if firstYear ≤ u.date.year ∧ u.date.year ≤ lastYear then some u else none) = some t := by
  rw [e, if_pos h]

/-- **Date and time of day tell the instant**, in the years accepted. -/
theorem ofCivil?_civil {t : Instant} (h : firstYear ≤ t.date.year ∧ t.date.year ≤ lastYear) :
    ofCivil? t.date t.clock 0 = some t := by
  have hv : t.date.isValid = true := Date.isValid_ofDay _
  have hday : t.date.toDay = t.second / 86400 := Date.toDay_ofDay _
  rw [ofCivil?, dif_pos ⟨hv, h.1, h.2, clock_bounds t⟩]
  refine accepted_eq ?_ h
  rcases clock_seconds t with ⟨h60, hn, hs⟩ | ⟨h60, hn, hs⟩
  · rw [if_pos h60]
    exact eq_of_parts (by simp only [hday]; omega) hn.symm
  · rw [if_neg h60]
    exact eq_of_parts (by simp only [hday]; omega) hn.symm

/-! ### Column text -/

theorem decimal_two (n : Nat) :
    Text.decimal 2 n = [Nat.digitChar (n / 10 % 10), Nat.digitChar (n % 10)] := rfl

theorem decimal_four (n : Nat) :
    Text.decimal 4 n = [Nat.digitChar (n / 10 / 10 / 10 % 10), Nat.digitChar (n / 10 / 10 % 10),
      Nat.digitChar (n / 10 % 10), Nat.digitChar (n % 10)] := rfl

theorem two?_decimal {n : Nat} (h : n < 100) :
    two? (Nat.digitChar (n / 10 % 10)) (Nat.digitChar (n % 10)) = some n := by
  rw [two?, Text.digit?_digitChar (Nat.mod_lt _ (by decide)),
    Text.digit?_digitChar (Nat.mod_lt _ (by decide))]
  simp only [Option.bind_eq_bind, Option.bind_some]
  exact congrArg some (by omega)

/-- A timestamp in parts: its date and the time of day to the second are read digit by digit. -/
theorem read?_parts {y o d h m s : Nat} (hy : y < 10000) (ho : o < 100) (hd : d < 100)
    (hh : h < 100) (hm : m < 100) (hs : s < 100) (rest : List Char) :
    read? (String.ofList (Text.decimal 4 y ++ '-' :: Text.decimal 2 o ++ '-' :: Text.decimal 2 d
        ++ 'T' :: (Text.decimal 2 h ++ ':' :: Text.decimal 2 m ++ ':' :: Text.decimal 2 s)
        ++ rest))
      = (readFraction? rest).bind fun p => (readOffset? p.2).bind fun ahead =>
          ofCivil? ⟨y, o, d⟩ ⟨h, m, s, p.1⟩ ahead := by
  have hy' : Text.number? (Text.decimal 4 y) = some y :=
    (Text.number?_decimal 4 y).trans (congrArg some (Nat.mod_eq_of_lt hy))
  rw [decimal_four] at hy'
  simp only [read?, String.toList_ofList, decimal_four, decimal_two, List.cons_append,
    List.nil_append, hy', two?_decimal ho, two?_decimal hd, two?_decimal hh, two?_decimal hm,
    two?_decimal hs, Option.bind_eq_bind, Option.bind_some, true_or, if_true]

theorem nanoOfDigits_decimal {n : Nat} (h : n < 1000000) :
    nanoOfDigits (Text.decimal 6 n) = some (1000 * n) := by
  have hz : List.replicate 3 '0' = Text.decimal 3 0 := by decide
  rw [nanoOfDigits, List.take_append, List.take_of_length_le (by simp), Text.length_numeral,
    List.take_replicate, show min (9 - 6) 9 = 3 from rfl, hz, Text.number?,
    Text.numberAfter_append, Text.numberAfter_decimal, Option.bind_some, Text.numberAfter_decimal]
  exact congrArg some (by omega)

theorem readFraction?_decimal {n : Nat} (h : n < 1000000) :
    readFraction? ('.' :: (Text.decimal 6 n ++ ['Z'])) = some (1000 * n, ['Z']) := by
  have hd : Text.digits? (Text.decimal 6 n ++ ['Z']).length (Text.decimal 6 n ++ ['Z'])
      = some (Text.decimal 6 n, ['Z']) :=
    Text.digits?_decimal (by decide) (by simp) (by decide)
  simp only [readFraction?, hd, Option.bind_eq_bind, Option.bind_some, nanoOfDigits_decimal h]
  rfl

theorem clock_floorMicros (t : Instant) :
    t.floorMicros.clock = { t.clock with nano := t.clock.nano / 1000 * 1000 } := by
  have hn := t.nano_lt
  by_cases hlt : t.nano < 1000000000
  · have : t.nano / 1000 * 1000 < 1000000000 := by omega
    simp only [clock, floorMicros, hlt, this, if_true]
  · have : ¬ t.nano / 1000 * 1000 < 1000000000 := by omega
    simp only [clock, floorMicros, hlt, this, if_false, Clock.mk.injEq, true_and]
    omega

/-- The column has room for the year of the instant: it has four digits. -/
def Fits (t : Instant) : Prop :=
  0 ≤ t.date.year ∧ t.date.year ≤ 9999

instance (t : Instant) : Decidable t.Fits :=
  inferInstanceAs (Decidable (_ ∧ _))

/-- **Reading back a column.**  An instant of the years 0 to 9999 is read back from its text, cut
to whole microseconds. -/
theorem read?_columnText {t : Instant} (h : t.Fits) :
    read? t.columnText = some t.floorMicros := by
  have hy : yearText t.date.year = Text.decimal 4 t.date.year.toNat := by
    rw [yearText, if_pos ⟨h.1, h.2⟩]
  have hlast := h.2
  have hm := Date.month_lt (Date.isValid_ofDay (t.second / 86400))
  have hc := clock_bounds t
  have hcivil : ofCivil? t.date { t.clock with nano := 1000 * (t.clock.nano / 1000) } 0
      = some t.floorMicros := by
    have hf := clock_floorMicros t
    rw [Nat.mul_comm (t.clock.nano / 1000)] at hf
    rw [← hf]
    exact ofCivil?_civil (t := t.floorMicros)
      ⟨Int.le_trans (by decide) h.1, Int.le_trans h.2 (by decide)⟩
  -- all parts have as many digits as their column gives them
  have key := read?_parts (y := t.date.year.toNat) (o := t.date.month) (d := t.date.day)
    (h := t.clock.hour) (m := t.clock.minute) (s := t.clock.second) (by omega)
    (Nat.lt_trans hm.1 (by decide)) (Nat.lt_trans hm.2 (by decide)) (by omega) (by omega)
    (by omega) ('.' :: (Text.decimal 6 (t.clock.nano / 1000) ++ ['Z']))
  rw [readFraction?_decimal (by omega), Int.toNat_of_nonneg h.1] at key
  rw [columnText, dateText, hy, clockText, ← hcivil]
  refine Eq.trans ?_ key
  simp only [List.append_assoc, List.cons_append]

/-- A year that does not fit is written with a sign and four digits or more. -/
theorem yearText_eq_sign {y : Int} (h : ¬ (0 ≤ y ∧ y ≤ 9999)) :
    ∃ sign digits, yearText y = sign :: digits ∧ 4 ≤ digits.length ∧ '-' ∉ digits := by
  rw [yearText, if_neg h]
  refine ⟨_, _, rfl, ?_⟩
  by_cases hs : y.natAbs ≤ 9999
  · simp only [if_pos hs]
    exact ⟨by simp, fun hm => absurd (Text.isDigit_of_mem_decimal hm) (by decide)⟩
  · simp only [if_neg hs, Nat.toList_repr]
    constructor
    · have := (Nat.length_toDigits_le_iff (b := 10) (n := y.natAbs) (k := 4) (by decide)
        (by decide)).1
      omega
    · exact fun hm => absurd (Nat.isDigit_of_mem_toDigits (by decide) (by decide) hm) (by decide)

/-- Where the reader wants a hyphen after the year, it takes nothing else. -/
theorem read?_of_no_hyphen {s : String} {a b c d e : Char} {rest : List Char}
    (hs : s.toList = a :: b :: c :: d :: e :: rest) (he : e ≠ '-') : read? s = none := by
  simp only [read?, hs]
  split
  · rename_i heq
    simp only [List.cons.injEq] at heq
    exact absurd heq.2.2.2.2.1 he
  · rfl

/-- **A column with a year that does not fit is not read back**: the reader finds a digit where it
wants a hyphen. -/
theorem read?_columnText_eq_none {t : Instant} (h : ¬ t.Fits) : read? t.columnText = none := by
  obtain ⟨sign, digits, hy, hlen, hno⟩ := yearText_eq_sign h
  match digits, hlen, hno with
  | b :: c :: d :: e :: rest, _, hno =>
      have hchars : t.columnText.toList = sign :: b :: c :: d :: e :: (rest
          ++ '-' :: Text.decimal 2 t.date.month ++ '-' :: Text.decimal 2 t.date.day
          ++ 'T' :: clockText t.clock ++ '.' :: Text.decimal 6 (t.clock.nano / 1000) ++ ['Z']) := by
        simp [columnText, dateText, hy]
      refine read?_of_no_hyphen hchars ?_
      rintro rfl
      simp at hno

end Instant

end Strongbox
