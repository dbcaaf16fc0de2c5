import Strongbox.Digest.Blake2b

/-!
# Stretch — Argon2id

The memory-hard password hash of RFC 9106, version 0x13, without secret and associated data.  The
memory is a matrix of blocks of 128 words with one row per lane.  Each pass fills the rows column
by column in four slices; a new block is made from the one before it in its lane and from a block
that an address names.  In the first half of the first pass the addresses depend on the position
alone, and afterwards on the block before.
-/

namespace Strongbox.Argon2id

/-! ### Blocks -/

/-- A block of 128 words. -/
abbrev Block := Array UInt64

/-- The word turned right by `n` bits, `0 < n < 64`. -/
@[inline] def turn (x n : UInt64) : UInt64 :=
  (x >>> n) ||| (x <<< (64 - n))

/-- The sum of two words and twice the product of their low halves. -/
@[inline] def addMul (x y : UInt64) : UInt64 :=
  x + y + 2 * (x &&& 0xffffffff) * (y &&& 0xffffffff)

/-- Four words mixed. -/
@[inline] def blend (a b c d : UInt64) : UInt64 × UInt64 × UInt64 × UInt64 :=
  let a := addMul a b
  let d := turn (d ^^^ a) 32
  let c := addMul c d
  let b := turn (b ^^^ c) 24
  let a := addMul a b
  let d := turn (d ^^^ a) 16
  let c := addMul c d
  let b := turn (b ^^^ c) 63
  (a, b, c, d)

/-- Sixteen words of a block mixed in place: eight pairs, `stride` apart, from `base` on. -/
def stir (b : Block) (base stride : Nat) : Block :=
  let v0 := b.getD base 0
  let v1 := b.getD (base + 1) 0
  let v2 := b.getD (base + stride) 0
  let v3 := b.getD (base + stride + 1) 0
  let v4 := b.getD (base + 2 * stride) 0
  let v5 := b.getD (base + 2 * stride + 1) 0
  let v6 := b.getD (base + 3 * stride) 0
  let v7 := b.getD (base + 3 * stride + 1) 0
  let v8 := b.getD (base + 4 * stride) 0
  let v9 := b.getD (base + 4 * stride + 1) 0
  let v10 := b.getD (base + 5 * stride) 0
  let v11 := b.getD (base + 5 * stride + 1) 0
  let v12 := b.getD (base + 6 * stride) 0
  let v13 := b.getD (base + 6 * stride + 1) 0
  let v14 := b.getD (base + 7 * stride) 0
  let v15 := b.getD (base + 7 * stride + 1) 0
  let (v0, v4, v8, v12) := blend v0 v4 v8 v12
  let (v1, v5, v9, v13) := blend v1 v5 v9 v13
  let (v2, v6, v10, v14) := blend v2 v6 v10 v14
  let (v3, v7, v11, v15) := blend v3 v7 v11 v15
  let (v0, v5, v10, v15) := blend v0 v5 v10 v15
  let (v1, v6, v11, v12) := blend v1 v6 v11 v12
  let (v2, v7, v8, v13) := blend v2 v7 v8 v13
  let (v3, v4, v9, v14) := blend v3 v4 v9 v14
  let b := b.setIfInBounds base v0
  let b := b.setIfInBounds (base + 1) v1
  let b := b.setIfInBounds (base + stride) v2
  let b := b.setIfInBounds (base + stride + 1) v3
  let b := b.setIfInBounds (base + 2 * stride) v4
  let b := b.setIfInBounds (base + 2 * stride + 1) v5
  let b := b.setIfInBounds (base + 3 * stride) v6
  let b := b.setIfInBounds (base + 3 * stride + 1) v7
  let b := b.setIfInBounds (base + 4 * stride) v8
  let b := b.setIfInBounds (base + 4 * stride + 1) v9
  let b := b.setIfInBounds (base + 5 * stride) v10
  let b := b.setIfInBounds (base + 5 * stride + 1) v11
  let b := b.setIfInBounds (base + 6 * stride) v12
  let b := b.setIfInBounds (base + 6 * stride + 1) v13
  let b := b.setIfInBounds (base + 7 * stride) v14
  let b := b.setIfInBounds (base + 7 * stride + 1) v15
  b

/-- The sum of two blocks, bit by bit. -/
def add (x y : Block) : Block :=
  Array.zipWith (· ^^^ ·) x y

/-- The block made from two: their sum, added to itself with its rows and then its columns
mixed. -/
def compress (x y : Block) : Block :=
  let sum := add x y
  let rows := (List.range 8).foldl (fun b i => stir b (16 * i) 2) sum
  let columns := (List.range 8).foldl (fun b i => stir b (2 * i) 16) rows
  add sum columns

/-! ### Digests of any length -/

/-- The number as four bytes, least significant first. -/
def count (n : Nat) : Bytes :=
  Bytes.little32 (UInt32.ofNat n)

/-- The halves of `n` digests, each the digest of the one before, and then `size` bytes of the
digest after them. -/
def chain : (n : Nat) → (size : Nat) → Bytes → Bytes
  | 0, size, v => Blake2b.digest size v
  | n + 1, size, v =>
    let next := Blake2b.digest 64 v
    next.take 32 ++ chain n size next

/-- A digest of `size` bytes, which may be more than a plain digest has. -/
def longDigest (size : Nat) (message : Bytes) : Bytes :=
  let marked := count size ++ message
  if size ≤ 64 then Blake2b.digest size marked
  else
    let halves := (size + 31) / 32 - 2
    chain halves (size - 32 * halves) marked

/-- The block that bytes spell. -/
def blockOf (b : Bytes) : Block :=
  (Bytes.littleWords64 b).toArray

/-! ### The matrix -/

/-- What the work costs: memory in KiB, passes over it, and lanes. -/
structure Cost where
  memory : Nat
  passes : Nat
  lanes : Nat
  deriving DecidableEq

/-- The number of blocks in a quarter of a lane. -/
def Cost.segment (c : Cost) : Nat :=
  max 2 (c.memory / (4 * c.lanes))

/-- The number of blocks in a lane. -/
def Cost.row (c : Cost) : Nat :=
  4 * c.segment

/-- A place in the order of filling: the pass, the slice and the lane. -/
structure Place where
  pass : Nat
  slice : Nat
  lane : Nat

/-- The addresses in this segment depend on the position alone. -/
def Place.independent (p : Place) : Bool :=
  p.pass == 0 && decide (p.slice < 2)

/-- The block of 128 addresses numbered `counter` in a segment with independent addresses. -/
def addresses (c : Cost) (p : Place) (counter : Nat) : Block :=
  let zero : Block := Array.replicate 128 0
  let input := [p.pass, p.lane, p.slice, c.row * c.lanes, c.passes, 2, counter].map UInt64.ofNat
  let seed := (input ++ List.replicate 121 0).toArray
  compress zero (compress zero seed)

/-- The place in the matrix that the address `j` names for the block `index` of a segment. -/
def Place.reference (p : Place) (c : Cost) (index : Nat) (j : UInt64) : Nat :=
  let lane :=
    if p.pass = 0 ∧ p.slice = 0 then p.lane else (j >>> 32).toNat % c.lanes
  let finished := if p.pass = 0 then p.slice * c.segment else 3 * c.segment
  let area :=
    if lane = p.lane then finished + index - 1
    else if index = 0 then finished - 1 else finished
  let x := (j &&& 0xffffffff).toNat
  let back := (area * ((x * x) >>> 32)) >>> 32
  let first := if p.pass = 0 then 0 else (p.slice + 1) % 4 * c.segment
  lane * c.row + (first + (area - 1 - back)) % c.row

/-- The matrix with the block `index` of a segment filled, and the addresses in use. -/
def fillBlock (c : Cost) (p : Place) (state : Array Block × Block) (index : Nat) :
    Array Block × Block :=
  let (matrix, named) := state
  let column := p.slice * c.segment + index
  let here := p.lane * c.row + column
  let before := if column = 0 then here + c.row - 1 else here - 1
  let previous := matrix.getD before #[]
  let named :=
    if p.independent && (index % 128 == 0 || named.isEmpty) then
      addresses c p (index / 128 + 1)
    else named
  let j := if p.independent then named.getD (index % 128) 0 else previous.getD 0 0
  let fresh := compress previous (matrix.getD (p.reference c index j) #[])
  let fresh := if p.pass = 0 then fresh else add fresh (matrix.getD here #[])
  (matrix.setIfInBounds here fresh, named)

/-- The matrix with one segment filled; the first two blocks of a lane are there beforehand. -/
def fillSegment (c : Cost) (matrix : Array Block) (p : Place) : Array Block :=
  let first := if p.pass = 0 ∧ p.slice = 0 then 2 else 0
  ((List.range' first (c.segment - first)).foldl (fillBlock c p) (matrix, #[])).1

/-- The segments in the order of filling. -/
def Cost.places (c : Cost) : List Place :=
  (List.range c.passes).flatMap fun pass =>
    (List.range 4).flatMap fun slice =>
      (List.range c.lanes).map fun lane => ⟨pass, slice, lane⟩

/-- The matrix with the first two blocks of each lane. -/
def matrixOf (c : Cost) (seed : Bytes) : Array Block :=
  (List.range c.lanes).foldl
    (fun matrix lane =>
      let block := fun k => blockOf (longDigest 1024 (seed ++ count k ++ count lane))
      (matrix.setIfInBounds (lane * c.row) (block 0)).setIfInBounds (lane * c.row + 1) (block 1))
    (Array.replicate (c.row * c.lanes) #[])

/-- The digest that everything starts from. -/
def seedOf (c : Cost) (size : Nat) (password salt : Bytes) : Bytes :=
  Blake2b.digest 64
    (count c.lanes ++ count size ++ count c.memory ++ count c.passes ++ count 0x13 ++ count 2
      ++ count password.length ++ password ++ count salt.length ++ salt ++ count 0 ++ count 0)

/-- The key of `size` bytes for a password and a salt. -/
def key (c : Cost) (size : Nat) (password salt : Bytes) : Bytes :=
  let matrix := c.places.foldl (fillSegment c) (matrixOf c (seedOf c size password salt))
  let last := (List.range c.lanes).foldl
    (fun sum lane => add sum (matrix.getD (lane * c.row + c.row - 1) #[]))
    (Array.replicate 128 0)
  longDigest size (last.toList.flatMap Bytes.little64)

/-! ### Limits -/

/-- The greatest number of bytes in a password, and in a salt. -/
def mostBytes : Nat := (1 <<< 32) - 1

/-- The least number of bytes in a salt. -/
def leastSalt : Nat := 8

/-- Why no key is made for a password and a salt with so many bytes, in words. -/
def refusal? (passwordSize saltSize : Nat) : Option String :=
  if mostBytes < passwordSize then some "password is too long"
  else if saltSize < leastSalt then some "salt is too short"
  else if mostBytes < saltSize then some "salt is too long"
  else none

end Strongbox.Argon2id
