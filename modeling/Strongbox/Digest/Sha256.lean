import Strongbox.Bytes

/-!
# Digest — SHA-256

The 32-byte digest of FIPS 180-4.  A message is filled up to whole blocks of sixteen words; each
block is stirred into eight registers by 64 rounds.  A round reads one word of the block and the
window of sixteen words slides on by one, its new last word made from four of the others.
-/

namespace Strongbox.Sha256

/-- The eight registers. -/
structure Registers where
  (a b c d e f g h : UInt32)

/-- Sixteen consecutive words of the message schedule. -/
structure Window where
  (w0 w1 w2 w3 w4 w5 w6 w7 w8 w9 w10 w11 w12 w13 w14 w15 : UInt32)

/-- The word turned right by `n` bits, `0 < n < 32`. -/
@[inline] def turn (x n : UInt32) : UInt32 :=
  (x >>> n) ||| (x <<< (32 - n))

/-- The window one word further on. -/
def Window.slide (w : Window) : Window :=
  let s0 := turn w.w1 7 ^^^ turn w.w1 18 ^^^ (w.w1 >>> 3)
  let s1 := turn w.w14 17 ^^^ turn w.w14 19 ^^^ (w.w14 >>> 10)
  ⟨w.w1, w.w2, w.w3, w.w4, w.w5, w.w6, w.w7, w.w8, w.w9, w.w10, w.w11, w.w12, w.w13, w.w14,
    w.w15, w.w0 + s0 + w.w9 + s1⟩

/-- One round with the round constant `k` and the word `x`. -/
def Registers.round (r : Registers) (k x : UInt32) : Registers :=
  let s1 := turn r.e 6 ^^^ turn r.e 11 ^^^ turn r.e 25
  let choice := (r.e &&& r.f) ^^^ ((~~~r.e) &&& r.g)
  let t1 := r.h + s1 + choice + k + x
  let s0 := turn r.a 2 ^^^ turn r.a 13 ^^^ turn r.a 22
  let majority := (r.a &&& r.b) ^^^ (r.a &&& r.c) ^^^ (r.b &&& r.c)
  ⟨t1 + s0 + majority, r.a, r.b, r.c, r.d + t1, r.e, r.f, r.g⟩

/-- The rounds for a list of round constants. -/
def rounds : List UInt32 → Window → Registers → Registers
  | [], _, r => r
  | k :: ks, w, r => rounds ks w.slide (r.round k w.w0)

/-- The round constants: the first bits of the cube roots of the first 64 primes. -/
def constants : List UInt32 :=
  [
   0x428a2f98, 0x71374491, 0xb5c0fbcf, 0xe9b5dba5, 0x3956c25b, 0x59f111f1, 0x923f82a4,
   0xab1c5ed5, 0xd807aa98, 0x12835b01, 0x243185be, 0x550c7dc3, 0x72be5d74, 0x80deb1fe,
   0x9bdc06a7, 0xc19bf174, 0xe49b69c1, 0xefbe4786, 0x0fc19dc6, 0x240ca1cc, 0x2de92c6f,
   0x4a7484aa, 0x5cb0a9dc, 0x76f988da, 0x983e5152, 0xa831c66d, 0xb00327c8, 0xbf597fc7,
   0xc6e00bf3, 0xd5a79147, 0x06ca6351, 0x14292967, 0x27b70a85, 0x2e1b2138, 0x4d2c6dfc,
   0x53380d13, 0x650a7354, 0x766a0abb, 0x81c2c92e, 0x92722c85, 0xa2bfe8a1, 0xa81a664b,
   0xc24b8b70, 0xc76c51a3, 0xd192e819, 0xd6990624, 0xf40e3585, 0x106aa070, 0x19a4c116,
   0x1e376c08, 0x2748774c, 0x34b0bcb5, 0x391c0cb3, 0x4ed8aa4a, 0x5b9cca4f, 0x682e6ff3,
   0x748f82ee, 0x78a5636f, 0x84c87814, 0x8cc70208, 0x90befffa, 0xa4506ceb, 0xbef9a3f7,
   0xc67178f2
  ]

/-- The registers at the start: the first bits of the square roots of the first eight primes. -/
def start : Registers :=
  ⟨0x6a09e667, 0xbb67ae85, 0x3c6ef372, 0xa54ff53a,
    0x510e527f, 0x9b05688c, 0x1f83d9ab, 0x5be0cd19⟩

/-- One block stirred in. -/
def Registers.stir (r : Registers) (w : Window) : Registers :=
  let s := rounds constants w r
  ⟨r.a + s.a, r.b + s.b, r.c + s.c, r.d + s.d, r.e + s.e, r.f + s.f, r.g + s.g, r.h + s.h⟩

/-- All whole blocks of a list of words stirred in. -/
def Registers.absorb : Registers → List UInt32 → Registers
  | r, w0 :: w1 :: w2 :: w3 :: w4 :: w5 :: w6 :: w7 :: w8 :: w9 :: w10 :: w11 :: w12 :: w13
      :: w14 :: w15 :: rest =>
    (r.stir ⟨w0, w1, w2, w3, w4, w5, w6, w7, w8, w9, w10, w11, w12, w13, w14, w15⟩).absorb rest
  | r, _ => r

/-- The registers as bytes. -/
def Registers.bytes (r : Registers) : Bytes :=
  Bytes.big32 r.a ++ Bytes.big32 r.b ++ Bytes.big32 r.c ++ Bytes.big32 r.d
    ++ Bytes.big32 r.e ++ Bytes.big32 r.f ++ Bytes.big32 r.g ++ Bytes.big32 r.h

/-- The digest of a message. -/
def digest (message : Bytes) : Bytes :=
  let n := message.length
  let filled := message ++ Bytes.hashPad n ++ Bytes.big64 (UInt64.ofNat (8 * n))
  (start.absorb (Bytes.bigWords32 filled)).bytes

@[simp] theorem length_digest (message : Bytes) : (digest message).length = 32 := by
  simp [digest, Registers.bytes]

end Strongbox.Sha256
