import Strongbox.Bytes

/-!
# Cipher — AES-256

The block cipher of FIPS 197 with a key of 32 bytes, in the forward direction, which is all a
counter mode needs.  A block is four columns of four bytes; a round substitutes every byte, turns
the rows, mixes each column and adds a round key.
-/

namespace Strongbox.Aes256

/-- Sixteen bytes as four columns, the byte of the first row being the most significant. -/
structure Block where
  (c0 c1 c2 c3 : UInt32)
  deriving DecidableEq

/-- The bytes of a block, column by column. -/
def Block.bytes (b : Block) : Bytes :=
  Bytes.big32 b.c0 ++ Bytes.big32 b.c1 ++ Bytes.big32 b.c2 ++ Bytes.big32 b.c3

@[simp] theorem Block.length_bytes (b : Block) : b.bytes.length = 16 := by
  simp [Block.bytes]

/-- The sum of two blocks, bit by bit. -/
def Block.add (a b : Block) : Block :=
  ⟨a.c0 ^^^ b.c0, a.c1 ^^^ b.c1, a.c2 ^^^ b.c2, a.c3 ^^^ b.c3⟩

/-- The substitution of bytes: the inverse in GF(2⁸), then an affine map. -/
def substitution : Array UInt8 :=
  #[
    0x63, 0x7c, 0x77, 0x7b, 0xf2, 0x6b, 0x6f, 0xc5, 0x30, 0x01, 0x67, 0x2b, 0xfe, 0xd7, 0xab, 0x76,
    0xca, 0x82, 0xc9, 0x7d, 0xfa, 0x59, 0x47, 0xf0, 0xad, 0xd4, 0xa2, 0xaf, 0x9c, 0xa4, 0x72, 0xc0,
    0xb7, 0xfd, 0x93, 0x26, 0x36, 0x3f, 0xf7, 0xcc, 0x34, 0xa5, 0xe5, 0xf1, 0x71, 0xd8, 0x31, 0x15,
    0x04, 0xc7, 0x23, 0xc3, 0x18, 0x96, 0x05, 0x9a, 0x07, 0x12, 0x80, 0xe2, 0xeb, 0x27, 0xb2, 0x75,
    0x09, 0x83, 0x2c, 0x1a, 0x1b, 0x6e, 0x5a, 0xa0, 0x52, 0x3b, 0xd6, 0xb3, 0x29, 0xe3, 0x2f, 0x84,
    0x53, 0xd1, 0x00, 0xed, 0x20, 0xfc, 0xb1, 0x5b, 0x6a, 0xcb, 0xbe, 0x39, 0x4a, 0x4c, 0x58, 0xcf,
    0xd0, 0xef, 0xaa, 0xfb, 0x43, 0x4d, 0x33, 0x85, 0x45, 0xf9, 0x02, 0x7f, 0x50, 0x3c, 0x9f, 0xa8,
    0x51, 0xa3, 0x40, 0x8f, 0x92, 0x9d, 0x38, 0xf5, 0xbc, 0xb6, 0xda, 0x21, 0x10, 0xff, 0xf3, 0xd2,
    0xcd, 0x0c, 0x13, 0xec, 0x5f, 0x97, 0x44, 0x17, 0xc4, 0xa7, 0x7e, 0x3d, 0x64, 0x5d, 0x19, 0x73,
    0x60, 0x81, 0x4f, 0xdc, 0x22, 0x2a, 0x90, 0x88, 0x46, 0xee, 0xb8, 0x14, 0xde, 0x5e, 0x0b, 0xdb,
    0xe0, 0x32, 0x3a, 0x0a, 0x49, 0x06, 0x24, 0x5c, 0xc2, 0xd3, 0xac, 0x62, 0x91, 0x95, 0xe4, 0x79,
    0xe7, 0xc8, 0x37, 0x6d, 0x8d, 0xd5, 0x4e, 0xa9, 0x6c, 0x56, 0xf4, 0xea, 0x65, 0x7a, 0xae, 0x08,
    0xba, 0x78, 0x25, 0x2e, 0x1c, 0xa6, 0xb4, 0xc6, 0xe8, 0xdd, 0x74, 0x1f, 0x4b, 0xbd, 0x8b, 0x8a,
    0x70, 0x3e, 0xb5, 0x66, 0x48, 0x03, 0xf6, 0x0e, 0x61, 0x35, 0x57, 0xb9, 0x86, 0xc1, 0x1d, 0x9e,
    0xe1, 0xf8, 0x98, 0x11, 0x69, 0xd9, 0x8e, 0x94, 0x9b, 0x1e, 0x87, 0xe9, 0xce, 0x55, 0x28, 0xdf,
    0x8c, 0xa1, 0x89, 0x0d, 0xbf, 0xe6, 0x42, 0x68, 0x41, 0x99, 0x2d, 0x0f, 0xb0, 0x54, 0xbb, 0x16]

/-- The substitute of the low byte of a word, as a word. -/
@[inline] def substitute (x : UInt32) : UInt32 :=
  (substitution.getD (x &&& 0xff).toNat 0).toUInt32

/-- A byte doubled in GF(2⁸). -/
@[inline] def double (x : UInt32) : UInt32 :=
  ((x <<< 1) ^^^ (if x &&& 0x80 = 0 then 0 else 0x11b)) &&& 0xff

/-- The column after substitution and turning of the rows: its bytes come from four columns. -/
@[inline] def gather (a b c d : UInt32) : UInt32 :=
  (substitute (a >>> 24) <<< 24) ||| (substitute (b >>> 16) <<< 16)
    ||| (substitute (c >>> 8) <<< 8) ||| substitute d

/-- A column multiplied by the fixed matrix of the cipher. -/
def mixColumn (x : UInt32) : UInt32 :=
  let a := x >>> 24
  let b := (x >>> 16) &&& 0xff
  let c := (x >>> 8) &&& 0xff
  let d := x &&& 0xff
  let all := a ^^^ b ^^^ c ^^^ d
  ((a ^^^ all ^^^ double (a ^^^ b)) <<< 24) ||| ((b ^^^ all ^^^ double (b ^^^ c)) <<< 16)
    ||| ((c ^^^ all ^^^ double (c ^^^ d)) <<< 8) ||| (d ^^^ all ^^^ double (d ^^^ a))

/-- A block with its bytes substituted and its rows turned. -/
def Block.scatter (b : Block) : Block :=
  ⟨gather b.c0 b.c1 b.c2 b.c3, gather b.c1 b.c2 b.c3 b.c0,
    gather b.c2 b.c3 b.c0 b.c1, gather b.c3 b.c0 b.c1 b.c2⟩

/-- A block with each column mixed. -/
def Block.mixColumns (b : Block) : Block :=
  ⟨mixColumn b.c0, mixColumn b.c1, mixColumn b.c2, mixColumn b.c3⟩

/-- The rounds for a list of round keys; the last one leaves out the mixing. -/
def rounds : List Block → Block → Block
  | [], b => b
  | [k], b => b.scatter.add k
  | k :: ks, b => rounds ks (b.scatter.mixColumns.add k)

/-- Eight consecutive words of the key schedule. -/
structure KeyWords where
  (w0 w1 w2 w3 w4 w5 w6 w7 : UInt32)

/-- The next eight words of the key schedule. -/
def KeyWords.next (k : KeyWords) (constant : UInt32) : KeyWords :=
  let w0 := k.w0 ^^^ gather (k.w7 <<< 8) (k.w7 <<< 8) (k.w7 <<< 8) (k.w7 >>> 24)
    ^^^ (constant <<< 24)
  let w1 := k.w1 ^^^ w0
  let w2 := k.w2 ^^^ w1
  let w3 := k.w3 ^^^ w2
  let w4 := k.w4 ^^^ gather w3 w3 w3 w3
  let w5 := k.w5 ^^^ w4
  let w6 := k.w6 ^^^ w5
  let w7 := k.w7 ^^^ w6
  ⟨w0, w1, w2, w3, w4, w5, w6, w7⟩

/-- The round keys from eight words of the schedule on, one more group for each constant. -/
def KeyWords.roundKeys (k : KeyWords) : List UInt32 → List Block
  | [] => [⟨k.w0, k.w1, k.w2, k.w3⟩]
  | c :: cs =>
    ⟨k.w0, k.w1, k.w2, k.w3⟩ :: ⟨k.w4, k.w5, k.w6, k.w7⟩ :: (k.next c).roundKeys cs

/-- The fifteen round keys of a key of 32 bytes; a key of another length counts as zero. -/
def roundKeys (key : Bytes) : List Block :=
  let words : KeyWords :=
    match Bytes.bigWords32 key with
    | [w0, w1, w2, w3, w4, w5, w6, w7] => ⟨w0, w1, w2, w3, w4, w5, w6, w7⟩
    | _ => ⟨0, 0, 0, 0, 0, 0, 0, 0⟩
  words.roundKeys [0x01, 0x02, 0x04, 0x08, 0x10, 0x20, 0x40]

/-- A block enciphered under a list of round keys. -/
def encipher (keys : List Block) (b : Block) : Block :=
  match keys with
  | [] => b
  | k :: ks => rounds ks (b.add k)

end Strongbox.Aes256
