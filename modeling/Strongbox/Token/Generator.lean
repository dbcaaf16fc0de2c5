import Strongbox.Supply
import Strongbox.Text.Numeral
import Strongbox.Token.Error

/-!
# Token — generator

A generated token is a mark, a stamp of the time in milliseconds, and a random suffix.  The stamp
has nine digits in base 32 unless the token is too short for that, and the suffix has at least six
letters.  Later tokens with stamps of one width sort after earlier ones.

* `Suffix.draw`: letters for the first accepted bytes of a supply, which is read by blocks.
-/

namespace Strongbox.Token

/-! ### The random suffix -/

namespace Suffix

/-- The letters of a suffix: digits and small letters that are not mistaken for one another. -/
def alphabet : List Char := "23456789abcdefghjkmnpqrstuvwxyz".toList

/-- The byte picks a letter; the bytes that would favour some letters do not. -/
def accepts (b : UInt8) : Bool :=
  decide (b < 248)

/-- The letter that a byte picks. -/
def letter (b : UInt8) : Char :=
  alphabet.getD (b.toNat % 31) '2'

/-- The number of bytes in a block. -/
def blockLength : Nat := 64

/-- The letters that the bytes of a block pick. -/
def letters (block : Bytes) : List Char :=
  (block.filter accepts).map letter

/-- `n` letters, and the supply after the last block read. -/
def draw (n : Nat) (s : Supply) : List Char × Supply :=
  if n = 0 then ([], s)
  else
    let got := letters (s.peek blockLength)
    let rest := s.skip blockLength
    if n ≤ got.length then (got.take n, rest)
    else
      let more := draw (n - got.length) rest
      (got ++ more.1, more.2)
termination_by (n, s.gap)
decreasing_by
  by_cases h : got.length = 0
  · have hgap : rest.gap < s.gap := Supply.gap_skip_lt (by decide) fun b hb hlt => by
      have hnil : (s.peek blockLength).filter accepts = [] := by
        simpa [got, letters] using h
      rw [List.filter_eq_nil_iff] at hnil
      exact hnil b hb (by simpa [accepts] using hlt)
    rw [h, Nat.sub_zero]
    exact Prod.Lex.right _ hgap
  · have e : (letters (s.peek blockLength)).length = got.length := rfl
    exact Prod.Lex.left _ _ (by omega)

end Suffix

/-! ### Whole tokens -/

/-- The start of every generated token. -/
def mark : List Char := "tk_".toList

/-- The digits of a stamp in ascending order. -/
def stampAlphabet : List Char := "0123456789ABCDEFGHJKMNPQRSTVWXYZ".toList

/-- The digit of a value below 32. -/
def stampDigit (n : Nat) : Char :=
  stampAlphabet.getD n '0'

/-- The number of digits in a full stamp. -/
def stampWidth : Nat := 9

/-- The least number of digits in a stamp. -/
def leastStamp : Nat := 6

/-- The least number of letters in a suffix. -/
def leastSuffix : Nat := 6

/-- The least length of a token: a mark, a short stamp and a short suffix. -/
def floor : Nat := mark.length + leastStamp + leastSuffix

/-- A generator of tokens whose lengths lie within bounds. -/
structure Generator where
  least : Nat
  most : Nat
  floor_le : floor ≤ least
  least_le : least ≤ most

namespace Generator

/-- The generator with the given bounds; each is raised if it is too low. -/
def ofBounds (least most : Nat) : Generator where
  least := max least floor
  most := max most (max least floor)
  floor_le := Nat.le_max_right _ _
  least_le := Nat.le_max_right _ _

/-- The generator with the usual bounds. -/
def usual : Generator := ofBounds 15 40

/-- The number of digits in the stamp of a token of a given length. -/
def stampLength (length : Nat) : Nat :=
  min stampWidth (length - mark.length - leastSuffix)

/-- A token of a given length for a time in milliseconds, and the supply after it. -/
def make (g : Generator) (length millis : Nat) (s : Supply) :
    Except LengthError (String × Supply) :=
  if g.least ≤ length ∧ length ≤ g.most then
    let stamp := Text.numeral stampDigit 32 (stampLength length) millis
    let (suffix, rest) := Suffix.draw (length - mark.length - stampLength length) s
    .ok (String.ofList (mark ++ stamp ++ suffix), rest)
  else .error ⟨length, g.least, g.most⟩

end Generator

end Strongbox.Token
