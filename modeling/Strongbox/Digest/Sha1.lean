import Strongbox.Bytes

/-!
# Digest — SHA-1

The 20-byte digest of FIPS 180-4.  Five registers take eighty rounds per block, in four spans of
twenty with a choice function and a constant each; the block's words slide through a window of
sixteen.
-/

namespace Strongbox.Sha1

/-- The five registers. -/
structure Registers where
  (a b c d e : UInt32)

/-- Sixteen consecutive words of the message schedule. -/
structure Window where
  (w0 w1 w2 w3 w4 w5 w6 w7 w8 w9 w10 w11 w12 w13 w14 w15 : UInt32)

/-- The word turned left by `n` bits, `0 < n < 32`. -/
@[inline] def turn (x n : UInt32) : UInt32 :=
  (x <<< n) ||| (x >>> (32 - n))

/-- The window one word further on. -/
def Window.slide (w : Window) : Window :=
  ⟨w.w1, w.w2, w.w3, w.w4, w.w5, w.w6, w.w7, w.w8, w.w9, w.w10, w.w11, w.w12, w.w13, w.w14,
    w.w15, turn (w.w13 ^^^ w.w8 ^^^ w.w2 ^^^ w.w0) 1⟩

/-- One round with the choice `f`, the constant `k` and the word `x`. -/
@[inline] def Registers.round (r : Registers) (f k x : UInt32) : Registers :=
  ⟨turn r.a 5 + f + r.e + k + x, r.a, turn r.b 30, r.c, r.d⟩

/-- The rounds from the span `span` on, `left` of them still to go in it. -/
def rounds : (left span : Nat) → Window → Registers → Registers
  | 0, _, _, r => r
  | left + 1, span, w, r =>
    let next :=
      match span with
      | 0 => r.round ((r.b &&& r.c) ||| ((~~~r.b) &&& r.d)) 0x5a827999 w.w0
      | 1 => r.round (r.b ^^^ r.c ^^^ r.d) 0x6ed9eba1 w.w0
      | 2 => r.round ((r.b &&& r.c) ||| (r.b &&& r.d) ||| (r.c &&& r.d)) 0x8f1bbcdc w.w0
      | _ => r.round (r.b ^^^ r.c ^^^ r.d) 0xca62c1d6 w.w0
    rounds left ((80 - left) / 20) w.slide next

/-- The registers at the start. -/
def start : Registers :=
  ⟨0x67452301, 0xefcdab89, 0x98badcfe, 0x10325476, 0xc3d2e1f0⟩

/-- One block stirred in. -/
def Registers.stir (r : Registers) (w : Window) : Registers :=
  let s := rounds 80 0 w r
  ⟨r.a + s.a, r.b + s.b, r.c + s.c, r.d + s.d, r.e + s.e⟩

/-- All whole blocks of a list of words stirred in. -/
def Registers.absorb : Registers → List UInt32 → Registers
  | r, w0 :: w1 :: w2 :: w3 :: w4 :: w5 :: w6 :: w7 :: w8 :: w9 :: w10 :: w11 :: w12 :: w13
      :: w14 :: w15 :: rest =>
    (r.stir ⟨w0, w1, w2, w3, w4, w5, w6, w7, w8, w9, w10, w11, w12, w13, w14, w15⟩).absorb rest
  | r, _ => r

/-- The digest of a message. -/
def digest (message : Bytes) : Bytes :=
  let n := message.length
  let filled := message ++ Bytes.hashPad n ++ Bytes.big64 (UInt64.ofNat (8 * n))
  let r := start.absorb (Bytes.bigWords32 filled)
  Bytes.big32 r.a ++ Bytes.big32 r.b ++ Bytes.big32 r.c ++ Bytes.big32 r.d ++ Bytes.big32 r.e

end Strongbox.Sha1
