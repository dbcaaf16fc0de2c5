import Strongbox.Text.Numeral

/-!
# Ids

An id is a number of 128 bits.  Its text is its 32 hexadecimal digits in five groups; three more
spellings are read: without hyphens, inside braces, and as a URN.
-/

namespace Strongbox

/-- An id of 128 bits. -/
structure Uuid where
  bits : BitVec 128
  deriving DecidableEq

namespace Uuid

/-- The value of the id as a number. -/
def toNat (u : Uuid) : Nat :=
  u.bits.toNat

/-- The id with a number as its value, which is taken modulo 2¹²⁸. -/
def ofNat (n : Nat) : Uuid :=
  ⟨BitVec.ofNat 128 n⟩

instance : LT Uuid := ⟨fun a b => a.toNat < b.toNat⟩

instance (a b : Uuid) : Decidable (a < b) :=
  inferInstanceAs (Decidable (a.toNat < b.toNat))

/-- The digits of the id in groups of 8, 4, 4, 4 and 12. -/
def textChars (u : Uuid) : List Char :=
  let n := u.toNat
  let part := fun width skipped => Text.numeral Nat.digitChar 16 width (n >>> (4 * skipped))
  part 8 24 ++ '-' :: part 4 20 ++ '-' :: part 4 16 ++ '-' :: part 4 12 ++ '-' :: part 12 0

/-- The id as text, in lower case with hyphens. -/
def text (u : Uuid) : String :=
  String.ofList u.textChars

/-- The id of 32 digits. -/
def ofDigits? (cs : List Char) : Option Uuid := do
  if cs.length = 32 then return ofNat (← Text.hexAfter 0 cs) else none

/-- The id of 36 characters with four hyphens. -/
def ofGroups? (cs : List Char) : Option Uuid :=
  if cs.length = 36 ∧ cs[8]? = some '-' ∧ cs[13]? = some '-' ∧ cs[18]? = some '-'
      ∧ cs[23]? = some '-' then
    ofDigits? (cs.take 8 ++ (cs.drop 9).take 4 ++ (cs.drop 14).take 4 ++ (cs.drop 19).take 4
      ++ cs.drop 24)
  else none

/-- The words before an id in a URN, in lower case. -/
def urn : List Char := "urn:uuid:".toList

/-- The characters are the words before an id in a URN; their case does not matter. -/
def isUrn (cs : List Char) : Bool :=
  cs.map Char.toLower = urn

/-- The id that a text spells. -/
def read? (s : String) : Option Uuid :=
  let cs := s.toList
  if cs.length = 32 then ofDigits? cs
  else if cs.length = 36 then ofGroups? cs
  else if cs.length = 38 ∧ cs.head? = some '\x7b' ∧ cs.getLast? = some '\x7d' then
    ofGroups? (cs.drop 1).dropLast
  else if cs.length = 45 ∧ isUrn (cs.take 9) then ofGroups? (cs.drop 9)
  else none

example : isUrn "Urn:uUID:".toList = true ∧ isUrn "urn:guid:".toList = false := by decide +kernel

end Uuid

end Strongbox
