import Strongbox.Time.Calendar
import Strongbox.Toml.Quoted

/-!
# TOML — numbers and moments

Integers in four bases, which must fit into 64 bits with a sign; numbers with a fraction or an
exponent; and dates and times of day.  Only the value of integers is kept.
-/

namespace Strongbox.Toml

/-- The digits of a run after its first digit; an underscore may stand between two digits. -/
def moreDigits? (isDigit : Char → Bool) : List Char → Option (List Char × List Char)
  | '_' :: c :: rest => if isDigit c then putFront c (moreDigits? isDigit rest) else none
  | c :: rest =>
    if isDigit c then putFront c (moreDigits? isDigit rest)
    else if c = '_' then none
    else some ([], c :: rest)
  | [] => some ([], [])

/-- A run of digits. -/
def digitRun? (isDigit : Char → Bool) : List Char → Option (List Char × List Char)
  | c :: rest => if isDigit c then putFront c (moreDigits? isDigit rest) else none
  | [] => none

/-- The digits of a decimal integer: one zero, or a run that begins with another digit. -/
def decimalDigits? : List Char → Option (List Char × List Char)
  | '0' :: rest => some (['0'], rest)
  | cs => digitRun? Text.isDigit cs

/-- A sign, if there is one; true for minus. -/
def sign : List Char → Bool × List Char
  | '-' :: rest => (true, rest)
  | '+' :: rest => (false, rest)
  | cs => (false, cs)

/-- The number of digits in a base up to 16. -/
def valueOf (base : Nat) (digits : List Char) : Nat :=
  digits.foldl (fun n c => base * n + (Text.hexDigit? c).getD 0) 0

/-- The integer, if it fits into 64 bits with a sign. -/
def fitting? (n : Int) : Option Int :=
  if -9223372036854775808 ≤ n ∧ n ≤ 9223372036854775807 then some n else none

/-- The character is a digit of a base up to 16. -/
def isDigitOf (base : Nat) (c : Char) : Bool :=
  (Text.hexDigit? c).any (· < base)

/-- An integer after the mark of its base. -/
def based? (base : Nat) (cs : List Char) : Option (Int × List Char) := do
  let (digits, rest) ← digitRun? (isDigitOf base) cs
  return (← fitting? (valueOf base digits), rest)

/-- An integer. -/
def integer? : List Char → Option (Int × List Char)
  | '0' :: 'x' :: rest => based? 16 rest
  | '0' :: 'o' :: rest => based? 8 rest
  | '0' :: 'b' :: rest => based? 2 rest
  | cs => do
    let (minus, cs) := sign cs
    let (digits, rest) ← decimalDigits? cs
    let size : Int := valueOf 10 digits
    return (← fitting? (if minus then -size else size), rest)

/-! ### Numbers with a fraction or an exponent -/

/-- The least number that is too great for a double: half a unit above the greatest. -/
def tooGreat : Nat := (1 <<< 1024) - (1 <<< 970)

/-- `digits · 10 ^ exponent` is not too great for a double. -/
def isFinite (digits : List Char) (exponent : Int) : Bool :=
  let n := valueOf 10 digits
  let places : Int := (Nat.repr n).length + exponent
  if n = 0 ∨ places < 309 then true
  else if 309 < places then false
  else decide (n * Nat.pow 10 exponent.toNat < tooGreat * Nat.pow 10 (-exponent).toNat)

/-- A fraction, if a point is next. -/
def fraction? : List Char → Option (List Char × List Char)
  | '.' :: rest => digitRun? Text.isDigit rest
  | cs => some ([], cs)

/-- An exponent, if its mark is next. -/
def exponent? : List Char → Option (Int × List Char)
  | c :: rest =>
    if c = 'e' ∨ c = 'E' then do
      let (minus, rest) := sign rest
      let (digits, rest) ← digitRun? Text.isDigit rest
      let size : Int := valueOf 10 digits
      return (if minus then -size else size, rest)
    else some (0, c :: rest)
  | [] => some (0, [])

/-- The text goes on with a point or the mark of an exponent. -/
def goesOn : List Char → Bool
  | c :: _ => c = '.' || c = 'e' || c = 'E'
  | [] => false

/-- The rest after a number with a fraction or an exponent. -/
def afterFloat? (cs : List Char) : Option (List Char) :=
  let (minus, cs) := sign cs
  match cs with
  | 'i' :: 'n' :: 'f' :: rest => some rest
  | 'n' :: 'a' :: 'n' :: rest => some rest
  | cs => do
    let (whole, cs) ← decimalDigits? cs
    if goesOn cs then
      let (part, cs) ← fraction? cs
      let (exponent, rest) ← exponent? cs
      if minus || isFinite (whole ++ part) (exponent - part.length) then some rest else none
    else none

/-! ### Dates and times of day -/

/-- A number of two decimal digits up to a bound, at the start of a text. -/
def twoUpTo? (most : Nat) : List Char → Option (Nat × List Char)
  | a :: b :: rest => do
    let n ← Text.number? [a, b]
    if n ≤ most then some (n, rest) else none
  | _ => none

/-- The rest after one character. -/
def after? (c : Char) : List Char → Option (List Char)
  | d :: rest => if d = c then some rest else none
  | [] => none

/-- The rest after a time of day. -/
def afterClock? (cs : List Char) : Option (List Char) := do
  let (_, cs) ← twoUpTo? 23 cs
  let (_, cs) ← twoUpTo? 59 (← after? ':' cs)
  let (_, cs) ← twoUpTo? 60 (← after? ':' cs)
  match cs with
  | '.' :: c :: rest => if Text.isDigit c then some (rest.dropWhile Text.isDigit) else some cs
  | cs => some cs

/-- The rest after an offset, if one is next. -/
def afterOffset? : List Char → Option (List Char)
  | c :: rest =>
    if c = 'Z' ∨ c = 'z' then some rest
    else if c = '+' ∨ c = '-' then do
      let (_, cs) ← twoUpTo? 23 rest
      let (_, cs) ← twoUpTo? 59 (← after? ':' cs)
      some cs
    else some (c :: rest)
  | [] => some []

/-- The text begins like a time of day. -/
def startsClock : List Char → Bool
  | a :: b :: ':' :: _ => ((Text.number? [a, b]).any (· ≤ 23))
  | _ => false

/-- The rest after a date, and after a time of day with it. -/
def afterDate? : List Char → Option (List Char)
  | y3 :: y2 :: y1 :: y0 :: '-' :: cs => do
    let year ← Text.number? [y3, y2, y1, y0]
    let (month, cs) ← twoUpTo? 12 cs
    let (day, cs) ← twoUpTo? 31 (← after? '-' cs)
    if (Date.mk year month day).isValid then
      match cs with
      | c :: rest =>
        if (c = 'T' ∨ c = 't' ∨ c = ' ') ∧ startsClock rest then
          (afterClock? rest).bind afterOffset?
        else some cs
      | [] => some []
    else none
  | _ => none

/-- The text begins like a date. -/
def startsDate : List Char → Bool
  | y3 :: y2 :: y1 :: y0 :: '-' :: _ => [y3, y2, y1, y0].all Text.isDigit
  | _ => false

end Strongbox.Toml
