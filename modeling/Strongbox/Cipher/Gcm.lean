import Strongbox.Cipher.Aes256

/-!
# Cipher — Galois counter mode

Authenticated encryption with AES-256 as in NIST SP 800-38D, with a nonce of 12 bytes, a tag of
16 bytes and no further data.  The text is covered by a pad made from the key and the nonce, and
the tag is a polynomial in the covered text over GF(2¹²⁸), covered by one more block of the pad.

* `decrypt?_encrypt`: what is encrypted decrypts to itself, up to the longest text.
* `encrypt_of_decrypt?`: only what is encrypted under the key and the nonce decrypts.
-/

namespace Strongbox.Gcm

open Aes256 (Block encipher roundKeys)

/-- An element of GF(2¹²⁸), the coefficient of 1 being the most significant bit of `hi`. -/
structure Poly where
  (hi lo : UInt64)
  deriving DecidableEq

/-- The element that a block of four words spells. -/
def Poly.ofWords (a b c d : UInt32) : Poly :=
  ⟨(a.toUInt64 <<< 32) ||| b.toUInt64, (c.toUInt64 <<< 32) ||| d.toUInt64⟩

/-- The product of the `n` leading coefficients of `x` with `v`, added to `z`. -/
def mulLoop : Nat → (xhi xlo vhi vlo zhi zlo : UInt64) → Poly
  | 0, _, _, _, _, zhi, zlo => ⟨zhi, zlo⟩
  | n + 1, xhi, xlo, vhi, vlo, zhi, zlo =>
    let take := (0 : UInt64) - (xhi >>> 63)
    let fold := (0 : UInt64) - (vlo &&& 1)
    mulLoop n ((xhi <<< 1) ||| (xlo >>> 63)) (xlo <<< 1)
      ((vhi >>> 1) ^^^ (fold &&& 0xe100000000000000)) ((vhi <<< 63) ||| (vlo >>> 1))
      (zhi ^^^ (take &&& vhi)) (zlo ^^^ (take &&& vlo))

/-- The product of two elements. -/
def Poly.mul (x v : Poly) : Poly :=
  mulLoop 128 x.hi x.lo v.hi v.lo 0 0

/-- The value at `h` of the polynomial whose coefficients are blocks of four words. -/
def Poly.eval (h : Poly) : Poly → List UInt32 → Poly
  | z, a :: b :: c :: d :: rest =>
    let x := Poly.ofWords a b c d
    eval h (Poly.mul ⟨z.hi ^^^ x.hi, z.lo ^^^ x.lo⟩ h) rest
  | z, _ => z

/-- The bytes filled with zeros to whole blocks. -/
def fillBlock (b : Bytes) : Bytes :=
  b ++ List.replicate ((16 - b.length % 16) % 16) 0

/-- The block that a nonce and a counter make. -/
def counterBlock (nonce : Bytes) (counter : UInt32) : Block :=
  match Bytes.bigWords32 nonce with
  | [a, b, c] => ⟨a, b, c, counter⟩
  | _ => ⟨0, 0, 0, counter⟩

/-- The pad of `n` blocks from a counter on. -/
def pad (keys : List Block) (nonce : Bytes) : (counter : UInt32) → (n : Nat) → Bytes
  | _, 0 => []
  | counter, n + 1 =>
    (encipher keys (counterBlock nonce counter)).bytes ++ pad keys nonce (counter + 1) n

/-- Data covered by the pad of a key and a nonce; covering twice uncovers. -/
def cover (keys : List Block) (nonce data : Bytes) : Bytes :=
  Bytes.xor data (pad keys nonce 2 ((data.length + 15) / 16))

/-- The tag of covered data. -/
def tag (keys : List Block) (nonce covered : Bytes) : Bytes :=
  let zero := encipher keys ⟨0, 0, 0, 0⟩
  let h := Poly.ofWords zero.c0 zero.c1 zero.c2 zero.c3
  let coefficients := Bytes.bigWords32
    (fillBlock covered ++ Bytes.big64 0 ++ Bytes.big64 (UInt64.ofNat (8 * covered.length)))
  let s := h.eval ⟨0, 0⟩ coefficients
  Bytes.xor (Bytes.big64 s.hi ++ Bytes.big64 s.lo) (encipher keys (counterBlock nonce 1)).bytes

/-- The number of bytes in a tag. -/
def tagLength : Nat := 16

@[simp] theorem length_tag (keys : List Block) (nonce covered : Bytes) :
    (tag keys nonce covered).length = tagLength := by
  simp [tag, tagLength]

@[simp] theorem length_pad (keys : List Block) (nonce : Bytes) (counter : UInt32) (n : Nat) :
    (pad keys nonce counter n).length = 16 * n := by
  induction n generalizing counter with
  | zero => rfl
  | succ n ih => simp [pad, ih]; omega

@[simp] theorem length_cover (keys : List Block) (nonce data : Bytes) :
    (cover keys nonce data).length = data.length := by
  simp only [cover, Bytes.length_xor, length_pad]; omega

theorem cover_cover (keys : List Block) (nonce data : Bytes) :
    cover keys nonce (cover keys nonce data) = data := by
  rw [cover, length_cover, cover]
  exact Bytes.xor_xor (by simp only [length_pad]; omega)

/-- The greatest number of bytes in a text. -/
def mostText : Nat := 1 <<< 36

/-- The covered text with its tag, for a text of any length. -/
def encrypt (key nonce text : Bytes) : Bytes :=
  let keys := roundKeys key
  let covered := cover keys nonce text
  covered ++ tag keys nonce covered

/-- The text of encrypted bytes, if they are not too many and their tag is right. -/
def decrypt? (key nonce encrypted : Bytes) : Option Bytes :=
  if encrypted.length < tagLength ∨ mostText + tagLength < encrypted.length then none
  else
    let keys := roundKeys key
    let covered := encrypted.take (encrypted.length - tagLength)
    if encrypted.drop (encrypted.length - tagLength) = tag keys nonce covered then
      some (cover keys nonce covered)
    else none

/-! ### Decryption undoes encryption, and nothing else -/

@[simp] theorem length_encrypt (key nonce text : Bytes) :
    (encrypt key nonce text).length = text.length + tagLength := by
  simp [encrypt]

theorem decrypt?_encrypt (key nonce : Bytes) {text : Bytes} (h : text.length ≤ mostText) :
    decrypt? key nonce (encrypt key nonce text) = some text := by
  have hlen : ¬ ((encrypt key nonce text).length < tagLength ∨
      mostText + tagLength < (encrypt key nonce text).length) := by
    rw [length_encrypt]
    omega
  rw [decrypt?, if_neg hlen]
  simp [encrypt, cover_cover]

theorem tagLength_le_of_decrypt? {key nonce encrypted text : Bytes}
    (h : decrypt? key nonce encrypted = some text) : tagLength ≤ encrypted.length := by
  simp only [decrypt?] at h
  split at h
  · cases h
  · omega

/-- No longer text decrypts. -/
theorem length_le_of_decrypt? {key nonce encrypted text : Bytes}
    (h : decrypt? key nonce encrypted = some text) : text.length ≤ mostText := by
  simp only [decrypt?] at h
  split at h
  · cases h
  · split at h
    · cases h
      simp only [length_cover, List.length_take]
      omega
    · cases h

theorem encrypt_of_decrypt? {key nonce encrypted text : Bytes}
    (h : decrypt? key nonce encrypted = some text) : encrypted = encrypt key nonce text := by
  simp only [decrypt?] at h
  split at h
  · cases h
  · split at h
    · rename_i ht
      cases h
      rw [encrypt, cover_cover, ← ht, List.take_append_drop]
    · cases h

/-- Under one key and nonce the tag follows from the covered text. -/
theorem eq_of_decrypt? {key nonce a b x y : Bytes} (ha : decrypt? key nonce a = some x)
    (hb : decrypt? key nonce b = some y)
    (h : a.take (a.length - tagLength) = b.take (b.length - tagLength)) : a = b := by
  simp only [decrypt?] at ha hb
  split at ha
  · cases ha
  · split at hb
    · cases hb
    · split at ha
      · rename_i hta
        split at hb
        · rename_i htb
          rw [← List.take_append_drop (a.length - tagLength) a, hta, h, ← htb,
            List.take_append_drop]
        · cases hb
      · cases ha

end Strongbox.Gcm
