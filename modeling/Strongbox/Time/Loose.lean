import Strongbox.Text.Blank
import Strongbox.Time.Strict

/-!
# Time — reading timestamps loosely

The reading of timestamps inside JSON documents.  It takes what the strict reading takes and more:
blanks before every number, hyphen, colon and offset, fields with fewer digits, years with a sign
and any count of digits, `UTC` for the offset, and any run of colons and blanks inside an offset.
-/

namespace Strongbox.Instant.Loose

open Text

/-- A number of at most `most` digits, with blanks before it, and the rest. -/
def number? (most : Nat) (cs : List Char) : Option (Nat × List Char) := do
  let (ds, rest) ← digits? most (skipBlanks cs)
  return (← Text.number? ds, rest)

/-- A year: four digits at most, or a sign and any count of digits. -/
def year? (cs : List Char) : Option (Int × List Char) :=
  match skipBlanks cs with
  | '-' :: rest => do
    let (ds, rest) ← digits? rest.length rest
    return (-(← Text.number? ds), rest)
  | '+' :: rest => do
    let (ds, rest) ← digits? rest.length rest
    return (↑(← Text.number? ds), rest)
  | cs => do
    let (n, rest) ← number? 4 cs
    return (n, rest)

/-- The rest of a text after blanks and one character. -/
def after? (c : Char) (cs : List Char) : Option (List Char) :=
  match skipBlanks cs with
  | d :: rest => if d = c then some rest else none
  | [] => none

/-- An offset of hours and minutes at the start of a text, and the rest. -/
def signed? (behind : Bool) : List Char → Option (Int × List Char)
  | h1 :: h0 :: rest =>
    match rest.dropWhile (fun c => c = ':' || isBlank c) with
    | m1 :: m0 :: rest => do return (← offsetMinutes? behind h1 h0 m1 m0, rest)
    | _ => none
  | _ => none

/-- An offset, `Z` or `UTC` at the start of a text, and the rest. -/
def offset? (cs : List Char) : Option (Int × List Char) :=
  match cs with
  | u :: t :: c :: rest =>
    if u.toUpper = 'U' ∧ t.toUpper = 'T' ∧ c.toUpper = 'C' then some (0, rest) else plain cs
  | cs => plain cs
where
  /-- An offset or `Z`. -/
  plain : List Char → Option (Int × List Char)
    | c :: rest =>
      if c = 'Z' ∨ c = 'z' then some (0, rest)
      else if c = '+' then signed? false rest
      else if c = '-' ∨ c = '\u2212' then signed? true rest
      else none
    | [] => none

/-- The instant that a timestamp names. -/
def read? (s : String) : Option Instant := do
  let (year, cs) ← year? s.toList
  let (month, cs) ← number? 2 (← after? '-' cs)
  let (day, cs) ← number? 2 (← after? '-' cs)
  let cs ←
    match cs with
    | t :: rest => if t = 'T' ∨ t = 't' ∨ t = ' ' then some rest else none
    | [] => none
  let (hour, cs) ← number? 2 cs
  let (minute, cs) ← number? 2 (← after? ':' cs)
  let (second, cs) ← number? 2 (← after? ':' cs)
  let (nano, cs) ← readFraction? cs
  let (ahead, cs) ← offset? (skipBlanks cs)
  if (skipBlanks cs).isEmpty then
    ofCivil? ⟨year, month, day⟩ ⟨hour, minute, second, nano⟩ ahead
  else none

end Strongbox.Instant.Loose
