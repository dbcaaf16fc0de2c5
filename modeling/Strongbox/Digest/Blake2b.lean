import Strongbox.Bytes

/-!
# Digest — BLAKE2b

The unkeyed digest of RFC 7693, of any length from 1 to 64 bytes.  The chain of eight words takes
one block of sixteen words at a time; a block is mixed into the chain by twelve rounds on sixteen
words, with the words of the block in a different order each round.
-/

namespace Strongbox.Blake2b

/-- Eight words: the chain, or half of the working words. -/
structure Chain where
  (h0 h1 h2 h3 h4 h5 h6 h7 : UInt64)

/-- The word turned right by `n` bits, `0 < n < 64`. -/
@[inline] def turn (x n : UInt64) : UInt64 :=
  (x >>> n) ||| (x <<< (64 - n))

/-- Four working words mixed with two words of the block. -/
@[inline] def mix (a b c d x y : UInt64) : UInt64 × UInt64 × UInt64 × UInt64 :=
  let a := a + b + x
  let d := turn (d ^^^ a) 32
  let c := c + d
  let b := turn (b ^^^ c) 24
  let a := a + b + y
  let d := turn (d ^^^ a) 16
  let c := c + d
  let b := turn (b ^^^ c) 63
  (a, b, c, d)

/-- The chain at the start, before length and key are marked in it. -/
def start : Chain :=
  ⟨0x6a09e667f3bcc908, 0xbb67ae8584caa73b, 0x3c6ef372fe94f82b,
    0xa54ff53a5f1d36f1, 0x510e527fade682d1, 0x9b05688c2b3e6c1f,
    0x1f83d9abfb41bd6b, 0x5be0cd19137e2179⟩

/-- The order of the block's words in each round. -/
def orders : List (Array Nat) :=
  [#[0, 1, 2, 3, 4, 5, 6, 7, 8, 9, 10, 11, 12, 13, 14, 15],
    #[14, 10, 4, 8, 9, 15, 13, 6, 1, 12, 0, 2, 11, 7, 5, 3],
    #[11, 8, 12, 0, 5, 2, 15, 13, 10, 14, 3, 6, 7, 1, 9, 4],
    #[7, 9, 3, 1, 13, 12, 11, 14, 2, 6, 5, 10, 4, 0, 15, 8],
    #[9, 0, 5, 7, 2, 4, 10, 15, 14, 1, 11, 12, 6, 8, 3, 13],
    #[2, 12, 6, 10, 0, 11, 8, 3, 4, 13, 7, 5, 15, 14, 1, 9],
    #[12, 5, 1, 15, 14, 13, 4, 10, 0, 7, 6, 3, 9, 2, 8, 11],
    #[13, 11, 7, 14, 12, 1, 3, 9, 5, 0, 15, 4, 8, 6, 2, 10],
    #[6, 15, 14, 9, 11, 3, 0, 8, 12, 2, 13, 7, 1, 4, 10, 5],
    #[10, 2, 8, 4, 7, 6, 1, 5, 15, 11, 9, 14, 3, 12, 13, 0],
    #[0, 1, 2, 3, 4, 5, 6, 7, 8, 9, 10, 11, 12, 13, 14, 15],
    #[14, 10, 4, 8, 9, 15, 13, 6, 1, 12, 0, 2, 11, 7, 5, 3]]

/-- The rounds on sixteen working words, and their two halves added up. -/
def rounds (block : Array UInt64) : List (Array Nat) →
    (v0 v1 v2 v3 v4 v5 v6 v7 v8 v9 v10 v11 v12 v13 v14 v15 : UInt64) → Chain
  | [], v0, v1, v2, v3, v4, v5, v6, v7, v8, v9, v10, v11, v12, v13, v14, v15 =>
    ⟨v0 ^^^ v8, v1 ^^^ v9, v2 ^^^ v10, v3 ^^^ v11, v4 ^^^ v12, v5 ^^^ v13, v6 ^^^ v14, v7 ^^^ v15⟩
  | order :: rest, v0, v1, v2, v3, v4, v5, v6, v7, v8, v9, v10, v11, v12, v13, v14, v15 =>
    let word := fun i => block.getD (order.getD i 0) 0
    let (v0, v4, v8, v12) := mix v0 v4 v8 v12 (word 0) (word 1)
    let (v1, v5, v9, v13) := mix v1 v5 v9 v13 (word 2) (word 3)
    let (v2, v6, v10, v14) := mix v2 v6 v10 v14 (word 4) (word 5)
    let (v3, v7, v11, v15) := mix v3 v7 v11 v15 (word 6) (word 7)
    let (v0, v5, v10, v15) := mix v0 v5 v10 v15 (word 8) (word 9)
    let (v1, v6, v11, v12) := mix v1 v6 v11 v12 (word 10) (word 11)
    let (v2, v7, v8, v13) := mix v2 v7 v8 v13 (word 12) (word 13)
    let (v3, v4, v9, v14) := mix v3 v4 v9 v14 (word 14) (word 15)
    rounds block rest v0 v1 v2 v3 v4 v5 v6 v7 v8 v9 v10 v11 v12 v13 v14 v15

/-- One block mixed in, `count` bytes having been read by its end. -/
def Chain.stir (h : Chain) (block : Array UInt64) (count : UInt64) (last : Bool) : Chain :=
  let m := rounds block orders h.h0 h.h1 h.h2 h.h3 h.h4 h.h5 h.h6 h.h7
    start.h0 start.h1 start.h2 start.h3 (start.h4 ^^^ count) start.h5
    (if last then ~~~start.h6 else start.h6) start.h7
  ⟨h.h0 ^^^ m.h0, h.h1 ^^^ m.h1, h.h2 ^^^ m.h2, h.h3 ^^^ m.h3,
    h.h4 ^^^ m.h4, h.h5 ^^^ m.h5, h.h6 ^^^ m.h6, h.h7 ^^^ m.h7⟩

/-- The words of a message from the block that starts after `done` bytes, out of `total`, mixed
in; the last block is the one that reaches the end. -/
def Chain.absorb (total : Nat) : Chain → (done : Nat) → List UInt64 → Chain
  | h, done, w0 :: w1 :: w2 :: w3 :: w4 :: w5 :: w6 :: w7 :: w8 :: w9 :: w10 :: w11 :: w12 :: w13
      :: w14 :: w15 :: rest =>
    let block := #[w0, w1, w2, w3, w4, w5, w6, w7, w8, w9, w10, w11, w12, w13, w14, w15]
    if total ≤ done + 128 then h.stir block (UInt64.ofNat total) true
    else absorb total (h.stir block (UInt64.ofNat (done + 128)) false) (done + 128) rest
  | h, _, _ => h

/-- The chain as bytes. -/
def Chain.bytes (h : Chain) : Bytes :=
  Bytes.little64 h.h0 ++ Bytes.little64 h.h1 ++ Bytes.little64 h.h2 ++ Bytes.little64 h.h3
    ++ Bytes.little64 h.h4 ++ Bytes.little64 h.h5 ++ Bytes.little64 h.h6 ++ Bytes.little64 h.h7

/-- The words of a message filled with zeros to whole blocks, at least one. -/
def blockWords (message : Bytes) : List UInt64 :=
  let fill := if message.isEmpty then 128 else (128 - message.length % 128) % 128
  Bytes.littleWords64 (message ++ List.replicate fill 0)

/-- The digest of `size` bytes of a message. -/
def digest (size : Nat) (message : Bytes) : Bytes :=
  let h : Chain := { start with h0 := start.h0 ^^^ 0x01010000 ^^^ UInt64.ofNat size }
  ((h.absorb message.length 0 (blockWords message)).bytes).take size

end Strongbox.Blake2b
