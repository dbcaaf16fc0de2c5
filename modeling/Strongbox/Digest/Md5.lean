import Strongbox.Bytes

/-!
# Digest — MD5

The 16-byte digest of RFC 1321.  Four registers take four spans of sixteen rounds per block; a
round adds one word of the block, a constant and a choice of the registers, and turns the sum.
-/

namespace Strongbox.Md5

/-- The four registers. -/
structure Registers where
  (a b c d : UInt32)

/-- The word turned left by `n` bits, `0 < n < 32`. -/
@[inline] def turn (x n : UInt32) : UInt32 :=
  (x <<< n) ||| (x >>> (32 - n))

/-- The rounds of one span: the constant, the turn and the place of the word of each, and the
choice function of the span. -/
@[specialize] def span (choice : UInt32 → UInt32 → UInt32 → UInt32) (block : Array UInt32) :
    List (UInt32 × UInt32 × Nat) → Registers → Registers
  | [], r => r
  | (k, n, i) :: rest, r =>
    let sum := r.a + choice r.b r.c r.d + k + block.getD i 0
    span choice block rest ⟨r.d, r.b + turn sum n, r.b, r.c⟩

/-- The rounds of the first span. -/
def span1 : List (UInt32 × UInt32 × Nat) :=
  [(0xd76aa478, 7, 0), (0xe8c7b756, 12, 1), (0x242070db, 17, 2), (0xc1bdceee, 22, 3),
    (0xf57c0faf, 7, 4), (0x4787c62a, 12, 5), (0xa8304613, 17, 6), (0xfd469501, 22, 7),
    (0x698098d8, 7, 8), (0x8b44f7af, 12, 9), (0xffff5bb1, 17, 10), (0x895cd7be, 22, 11),
    (0x6b901122, 7, 12), (0xfd987193, 12, 13), (0xa679438e, 17, 14), (0x49b40821, 22, 15)]

/-- The rounds of the second span. -/
def span2 : List (UInt32 × UInt32 × Nat) :=
  [(0xf61e2562, 5, 1), (0xc040b340, 9, 6), (0x265e5a51, 14, 11), (0xe9b6c7aa, 20, 0),
    (0xd62f105d, 5, 5), (0x02441453, 9, 10), (0xd8a1e681, 14, 15), (0xe7d3fbc8, 20, 4),
    (0x21e1cde6, 5, 9), (0xc33707d6, 9, 14), (0xf4d50d87, 14, 3), (0x455a14ed, 20, 8),
    (0xa9e3e905, 5, 13), (0xfcefa3f8, 9, 2), (0x676f02d9, 14, 7), (0x8d2a4c8a, 20, 12)]

/-- The rounds of the third span. -/
def span3 : List (UInt32 × UInt32 × Nat) :=
  [(0xfffa3942, 4, 5), (0x8771f681, 11, 8), (0x6d9d6122, 16, 11), (0xfde5380c, 23, 14),
    (0xa4beea44, 4, 1), (0x4bdecfa9, 11, 4), (0xf6bb4b60, 16, 7), (0xbebfbc70, 23, 10),
    (0x289b7ec6, 4, 13), (0xeaa127fa, 11, 0), (0xd4ef3085, 16, 3), (0x04881d05, 23, 6),
    (0xd9d4d039, 4, 9), (0xe6db99e5, 11, 12), (0x1fa27cf8, 16, 15), (0xc4ac5665, 23, 2)]

/-- The rounds of the fourth span. -/
def span4 : List (UInt32 × UInt32 × Nat) :=
  [(0xf4292244, 6, 0), (0x432aff97, 10, 7), (0xab9423a7, 15, 14), (0xfc93a039, 21, 5),
    (0x655b59c3, 6, 12), (0x8f0ccc92, 10, 3), (0xffeff47d, 15, 10), (0x85845dd1, 21, 1),
    (0x6fa87e4f, 6, 8), (0xfe2ce6e0, 10, 15), (0xa3014314, 15, 6), (0x4e0811a1, 21, 13),
    (0xf7537e82, 6, 4), (0xbd3af235, 10, 11), (0x2ad7d2bb, 15, 2), (0xeb86d391, 21, 9)]

/-- The registers at the start. -/
def start : Registers :=
  ⟨0x67452301, 0xefcdab89, 0x98badcfe, 0x10325476⟩

/-- One block stirred in. -/
def Registers.stir (r : Registers) (block : Array UInt32) : Registers :=
  let s := span (fun b c d => (b &&& c) ||| ((~~~b) &&& d)) block span1 r
  let s := span (fun b c d => (d &&& b) ||| ((~~~d) &&& c)) block span2 s
  let s := span (fun b c d => b ^^^ c ^^^ d) block span3 s
  let s := span (fun b c d => c ^^^ (b ||| ~~~d)) block span4 s
  ⟨r.a + s.a, r.b + s.b, r.c + s.c, r.d + s.d⟩

/-- All whole blocks of a list of words stirred in. -/
def Registers.absorb : Registers → List UInt32 → Registers
  | r, w0 :: w1 :: w2 :: w3 :: w4 :: w5 :: w6 :: w7 :: w8 :: w9 :: w10 :: w11 :: w12 :: w13
      :: w14 :: w15 :: rest =>
    (r.stir #[w0, w1, w2, w3, w4, w5, w6, w7, w8, w9, w10, w11, w12, w13, w14, w15]).absorb rest
  | r, _ => r

/-- The digest of a message. -/
def digest (message : Bytes) : Bytes :=
  let n := message.length
  let filled := message ++ Bytes.hashPad n ++ Bytes.little64 (UInt64.ofNat (8 * n))
  let r := start.absorb (Bytes.littleWords32 filled)
  Bytes.little32 r.a ++ Bytes.little32 r.b ++ Bytes.little32 r.c ++ Bytes.little32 r.d

end Strongbox.Md5
