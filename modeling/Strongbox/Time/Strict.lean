import Strongbox.Time.Instant

/-!
# Time — reading RFC 3339

The strict reading of a timestamp: every field has its full count of digits, a `T` or one blank
parts date and time, and the offset stands directly behind the seconds.  The year has exactly four
digits and no sign.
-/

namespace Strongbox.Instant

/-- The number of two decimal digits. -/
def two? (a b : Char) : Option Nat := do
  return 10 * (← Text.digit? a) + (← Text.digit? b)

/-- The nanoseconds that a fraction's digits spell; from the tenth on they are not looked at. -/
def nanoOfDigits (ds : List Char) : Option Nat :=
  Text.number? ((ds ++ List.replicate 9 '0').take 9)

/-- A fraction of a second at the start of a text, if one is there, and the rest. -/
def readFraction? : List Char → Option (Nat × List Char)
  | '.' :: cs => do
    let (ds, rest) ← Text.digits? cs.length cs
    return (← nanoOfDigits ds, rest)
  | cs => some (0, cs)

/-- The minutes of an offset given by its sign and digits, if it stays below one day. -/
def offsetMinutes? (behind : Bool) (h1 h0 m1 m0 : Char) : Option Int := do
  let hours ← two? h1 h0
  let minutes ← two? m1 m0
  if hours ≤ 23 ∧ minutes ≤ 59 then
    let size : Int := 60 * hours + minutes
    return if behind then -size else size
  else none

/-- The minutes that an offset, which is the whole text, is ahead of universal time. -/
def readOffset? : List Char → Option Int
  | ['Z'] | ['z'] => some 0
  | [sign, h1, h0, ':', m1, m0] =>
    if sign = '+' then offsetMinutes? false h1 h0 m1 m0
    else if sign = '-' ∨ sign = '\u2212' then offsetMinutes? true h1 h0 m1 m0
    else none
  | _ => none

/-- The instant that a timestamp names. -/
def read? (s : String) : Option Instant :=
  match s.toList with
  | y3 :: y2 :: y1 :: y0 :: '-' :: o1 :: o0 :: '-' :: d1 :: d0 :: t :: h1 :: h0 :: ':' :: m1 :: m0
      :: ':' :: s1 :: s0 :: rest => do
    let year ← Text.number? [y3, y2, y1, y0]
    let date : Date := ⟨year, ← two? o1 o0, ← two? d1 d0⟩
    if t = 'T' ∨ t = 't' ∨ t = ' ' then
      let (nano, rest) ← readFraction? rest
      let clock : Clock := ⟨← two? h1 h0, ← two? m1 m0, ← two? s1 s0, nano⟩
      ofCivil? date clock (← readOffset? rest)
    else none
  | _ => none

end Strongbox.Instant
