import Strongbox.Text.Numeral

/-!
# Bytes

Finite sequences of bytes, the texts they encode in UTF-8, and the words they spell in either
byte order.

* `toText?_ofText`, `ofText_of_toText?`: the UTF-8 form of a text reads back, and only that form
  reads as the text.
* `xor_xor`: adding the same pad twice gives the data back.
-/

namespace Strongbox

/-- A finite sequence of bytes. -/
abbrev Bytes := List UInt8

namespace Bytes

/-! ### Texts -/

/-- The UTF-8 form of a text. -/
def ofText (s : String) : Bytes :=
  s.toUTF8.data.toList

/-- The text whose UTF-8 form the bytes are, if they are one. -/
def toText? (b : Bytes) : Option String :=
  String.fromUTF8? ⟨b.toArray⟩

/-- A text has as many bytes as its UTF-8 form. -/
theorem size_ofText (s : String) : (ofText s).length = s.utf8ByteSize := rfl

@[simp] theorem toText?_ofText (s : String) : toText? (ofText s) = some s := by
  have h : (⟨(ofText s).toArray⟩ : ByteArray) = s.toByteArray := by simp [ofText]
  simp [toText?, String.fromUTF8?, h, s.isValidUTF8, String.fromUTF8]

theorem ofText_of_toText? {b : Bytes} {s : String} (h : toText? b = some s) : b = ofText s := by
  simp only [toText?, String.fromUTF8?] at h
  split at h
  · cases h; simp [ofText, String.fromUTF8]
  · cases h

/-! ### Words -/

/-- A 32-bit word from its bytes, most significant first. -/
@[inline] def word32 (a b c d : UInt8) : UInt32 :=
  (a.toUInt32 <<< 24) ||| (b.toUInt32 <<< 16) ||| (c.toUInt32 <<< 8) ||| d.toUInt32

/-- The bytes of a 32-bit word, most significant first. -/
def big32 (w : UInt32) : Bytes :=
  [(w >>> 24).toUInt8, (w >>> 16).toUInt8, (w >>> 8).toUInt8, w.toUInt8]

/-- The bytes of a 32-bit word, least significant first. -/
def little32 (w : UInt32) : Bytes :=
  [w.toUInt8, (w >>> 8).toUInt8, (w >>> 16).toUInt8, (w >>> 24).toUInt8]

/-- The bytes of a 64-bit word, most significant first. -/
def big64 (w : UInt64) : Bytes :=
  [(w >>> 56).toUInt8, (w >>> 48).toUInt8, (w >>> 40).toUInt8, (w >>> 32).toUInt8,
    (w >>> 24).toUInt8, (w >>> 16).toUInt8, (w >>> 8).toUInt8, w.toUInt8]

/-- The bytes of a 64-bit word, least significant first. -/
def little64 (w : UInt64) : Bytes :=
  [w.toUInt8, (w >>> 8).toUInt8, (w >>> 16).toUInt8, (w >>> 24).toUInt8,
    (w >>> 32).toUInt8, (w >>> 40).toUInt8, (w >>> 48).toUInt8, (w >>> 56).toUInt8]

@[simp] theorem length_big32 (w : UInt32) : (big32 w).length = 4 := rfl
@[simp] theorem length_little32 (w : UInt32) : (little32 w).length = 4 := rfl
@[simp] theorem length_big64 (w : UInt64) : (big64 w).length = 8 := rfl
@[simp] theorem length_little64 (w : UInt64) : (little64 w).length = 8 := rfl

/-- The 32-bit words of the bytes, most significant byte first; a last part of fewer than four
bytes is left out. -/
def bigWords32 : Bytes → List UInt32
  | a :: b :: c :: d :: rest => word32 a b c d :: bigWords32 rest
  | _ => []

/-- The 32-bit words of the bytes, least significant byte first; a last part of fewer than four
bytes is left out. -/
def littleWords32 : Bytes → List UInt32
  | a :: b :: c :: d :: rest => word32 d c b a :: littleWords32 rest
  | _ => []

/-- The 64-bit words of the bytes, least significant byte first; a last part of fewer than eight
bytes is left out. -/
def littleWords64 : Bytes → List UInt64
  | a :: b :: c :: d :: e :: f :: g :: h :: rest =>
    ((word32 h g f e).toUInt64 <<< 32 ||| (word32 d c b a).toUInt64) :: littleWords64 rest
  | _ => []

/-! ### Pads -/

/-- The bytes with a pad added bit by bit, as far as both reach. -/
def xor (a b : Bytes) : Bytes :=
  List.zipWith (· ^^^ ·) a b

@[simp] theorem length_xor (a b : Bytes) : (xor a b).length = min a.length b.length := by
  simp [xor]

/-- A pad that covers the data, added twice, gives the data back. -/
theorem xor_xor {a b : Bytes} (h : a.length ≤ b.length) : xor (xor a b) b = a := by
  induction a generalizing b with
  | nil => simp [xor]
  | cons x a ih =>
    cases b with
    | nil => simp at h
    | cons y b =>
      have := ih (b := b) (by simpa using h)
      simp only [xor, List.zipWith_cons_cons, List.cons.injEq] at this ⊢
      exact ⟨by rw [UInt8.xor_assoc, UInt8.xor_self, UInt8.xor_zero], this⟩

/-! ### Padding of hashed messages -/

/-- The zero bytes that bring `n` bytes, a marking byte and an eight-byte length to a multiple of
sixty-four. -/
def hashPad (n : Nat) : Bytes :=
  0x80 :: List.replicate ((119 - n % 64) % 64) 0

/-! ### Hexadecimal text -/

/-- The bytes that pairs of hexadecimal digits spell. -/
def ofHex? : List Char → Option Bytes
  | [] => some []
  | a :: b :: rest => do
    let hi ← Text.hexDigit? a
    let lo ← Text.hexDigit? b
    let tail ← ofHex? rest
    return UInt8.ofNat (16 * hi + lo) :: tail
  | [_] => none

end Bytes

end Strongbox
