import Strongbox.Text.Numeral
import Strongbox.Time.Calendar

/-!
# Time — instants

An instant of universal time to the nanosecond.  A leap second is a second of its own: it is
counted with the second 59 before it, its nanoseconds running on from 1 000 000 000.  So instants
are ordered by second and then by nanosecond.  Leap seconds after any other second are left out.

* `text`: the date and the time of day with as much of the fraction as is not zero, in groups of
  three digits, and `Z`.
-/

namespace Strongbox

/-- An instant: seconds from 1970-01-01T00:00:00Z, and nanoseconds. -/
structure Instant where
  second : Int
  nano : Nat
  /-- The second lasts a thousand million nanoseconds, or twice as many with its leap second. -/
  nano_lt : nano < 2000000000 := by omega
  /-- A leap second comes after the last second of a minute, as in all that a clock shows and a text
  spells.  A choice of this model: instants with one after any other second, which come of setting
  the nanoseconds alone or of an offset that is not in whole minutes, are left out. -/
  last_of_leap : 1000000000 ≤ nano → second % 60 = 59 := by omega
  deriving DecidableEq

namespace Instant

/-- The first instant comes before the second. -/
def before (a b : Instant) : Bool :=
  decide (a.second < b.second ∨ (a.second = b.second ∧ a.nano < b.nano))

instance : LT Instant := ⟨fun a b => a.before b⟩

instance (a b : Instant) : Decidable (a < b) :=
  inferInstanceAs (Decidable (a.before b = true))

instance : Inhabited Instant := ⟨⟨0, 0, by decide, by decide⟩⟩

/-- The start of a second. -/
def ofSecond (second : Int) : Instant :=
  ⟨second, 0, by decide, by omega⟩

/-- The instant cut to whole microseconds. -/
def floorMicros (t : Instant) : Instant where
  second := t.second
  nano := t.nano / 1000 * 1000
  nano_lt := by have := t.nano_lt; omega
  last_of_leap h := t.last_of_leap (by omega)

/-! ### Civil time -/

/-- A time of day; the second 60 is a leap second. -/
structure Clock where
  hour : Nat
  minute : Nat
  second : Nat
  nano : Nat

/-- The date of an instant. -/
def date (t : Instant) : Date :=
  Date.ofDay (t.second / 86400)

/-- The time of day of an instant. -/
def clock (t : Instant) : Clock :=
  let s := (t.second % 86400).toNat
  if t.nano < 1000000000 then ⟨s / 3600, s / 60 % 60, s % 60, t.nano⟩
  else ⟨s / 3600, s / 60 % 60, s % 60 + 1, t.nano - 1000000000⟩

/-- The last year whose dates are accepted. -/
def lastYear : Int := 262142

/-- The first year whose dates are accepted. -/
def firstYear : Int := -262143

/-- The instant of a local date and time that is `ahead` minutes ahead of universal time.  None if
there is no such date or time, or if it lies outside the years accepted. -/
def ofCivil? (d : Date) (c : Clock) (ahead : Int) : Option Instant :=
  if h : d.isValid ∧ firstYear ≤ d.year ∧ d.year ≤ lastYear
      ∧ c.hour ≤ 23 ∧ c.minute ≤ 59 ∧ c.second ≤ 60 ∧ c.nano < 1000000000 then
    let minute : Int := 1440 * d.toDay + 60 * c.hour + c.minute - ahead
    let t : Instant :=
      if c.second = 60 then ⟨60 * minute + 59, c.nano + 1000000000, by omega, by omega⟩
      else ⟨60 * minute + c.second, c.nano, by omega, by omega⟩
    if firstYear ≤ t.date.year ∧ t.date.year ≤ lastYear then some t else none
  else none

/-! ### Texts -/

/-- A year: four digits, and outside of 0 to 9999 a sign and at least four digits. -/
def yearText (y : Int) : List Char :=
  if 0 ≤ y ∧ y ≤ 9999 then Text.decimal 4 y.toNat
  else
    let size := y.natAbs
    (if y < 0 then '-' else '+')
      :: (if size ≤ 9999 then Text.decimal 4 size else (Nat.repr size).toList)

/-- A date as year, month and day with hyphens. -/
def dateText (d : Date) : List Char :=
  yearText d.year ++ '-' :: Text.decimal 2 d.month ++ '-' :: Text.decimal 2 d.day

/-- A time of day to the second. -/
def clockText (c : Clock) : List Char :=
  Text.decimal 2 c.hour ++ ':' :: Text.decimal 2 c.minute ++ ':' :: Text.decimal 2 c.second

/-- A fraction of a second with the fewest groups of three digits, none for zero. -/
def fractionText (nano : Nat) : List Char :=
  if nano = 0 then []
  else if nano % 1000000 = 0 then '.' :: Text.decimal 3 (nano / 1000000)
  else if nano % 1000 = 0 then '.' :: Text.decimal 6 (nano / 1000)
  else '.' :: Text.decimal 9 nano

/-- The instant with a `T` between date and time and a `Z` at the end. -/
def text (t : Instant) : String :=
  String.ofList
    (dateText t.date ++ 'T' :: clockText t.clock ++ fractionText t.clock.nano ++ ['Z'])

/-- The instant with blanks between its parts and the name of universal time. -/
def spacedText (t : Instant) : String :=
  String.ofList
    (dateText t.date ++ ' ' :: clockText t.clock ++ fractionText t.clock.nano
      ++ [' ', 'U', 'T', 'C'])

end Instant

end Strongbox
