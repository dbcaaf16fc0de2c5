/-!
# Text — numerals of fixed width

A number written with a fixed count of digits in some base, most significant first.  Numbers that
do not fit lose their leading digits.  Ids, instants and the stamps of tokens are all written this
way, which is why their texts sort like the numbers.
-/

namespace Strongbox.Text

/-- The last `width` digits of a number in a base. -/
def numeral (digit : Nat → Char) (base : Nat) : (width : Nat) → Nat → List Char
  | 0, _ => []
  | width + 1, n => numeral digit base width (n / base) ++ [digit (n % base)]

@[simp] theorem length_numeral (digit : Nat → Char) (base width n : Nat) :
    (numeral digit base width n).length = width := by
  induction width generalizing n with
  | zero => rfl
  | succ width ih => simp [numeral, ih]

/-- The last `width` decimal digits of a number. -/
abbrev decimal (width n : Nat) : List Char :=
  numeral Nat.digitChar 10 width n

/-- The value of a decimal digit. -/
def digit? (c : Char) : Option Nat :=
  if '0' ≤ c ∧ c ≤ '9' then some (c.toNat - 48) else none

/-- The value of a hexadecimal digit of either case. -/
def hexDigit? (c : Char) : Option Nat :=
  if '0' ≤ c ∧ c ≤ '9' then some (c.toNat - 48)
  else if 'a' ≤ c ∧ c ≤ 'f' then some (c.toNat - 87)
  else if 'A' ≤ c ∧ c ≤ 'F' then some (c.toNat - 55)
  else none

/-- The character is a decimal digit. -/
def isDigit (c : Char) : Bool :=
  (digit? c).isSome

/-- The number that decimal digits spell, after those whose number is `n`; none if one of the
characters is no digit. -/
def numberAfter (n : Nat) : List Char → Option Nat
  | [] => some n
  | c :: rest => do numberAfter (10 * n + (← digit? c)) rest

/-- The number that decimal digits spell. -/
abbrev number? (cs : List Char) : Option Nat :=
  numberAfter 0 cs

/-- The number that hexadecimal digits spell, after those whose number is `n`. -/
def hexAfter (n : Nat) : List Char → Option Nat
  | [] => some n
  | c :: rest => do hexAfter (16 * n + (← hexDigit? c)) rest

/-- The longest start of at most `most` digits, and the rest; none if there is no digit. -/
def digits? (most : Nat) (cs : List Char) : Option (List Char × List Char) :=
  let lead := (cs.take most).takeWhile isDigit
  if lead.isEmpty then none else some (lead, cs.drop lead.length)

end Strongbox.Text
