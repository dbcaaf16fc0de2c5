import Strongbox.Bytes.Base64
import Strongbox.Digest.Md5
import Strongbox.Digest.Sha1
import Strongbox.Digest.Sha256

/-!
# Lock — the legacy format

A key is stretched from the password and a salt of eight bytes by a thousand rounds over three
digests.  The text is covered with a pad made from the key and a block counter, and four bytes of a
digest of the key let a reader see whether the password is right; the text itself is not checked.
-/

namespace Strongbox.Lock.Legacy

/-- The number of bytes in a salt. -/
def saltLength : Nat := 8

/-- The number of bytes that check a key. -/
def checkLength : Nat := 4

/-- The number of rounds that stretch a password. -/
def stretchRounds : Nat := 1000

/-- `n` rounds from a state. -/
def stretchFrom (password salt : Bytes) : (n : Nat) → Bytes → Bytes
  | 0, state => state
  | n + 1, state =>
    let inner := Sha1.digest (Md5.digest (state ++ password) ++ salt)
    stretchFrom password salt n (Sha256.digest (inner ++ state))

/-- The key for a password and a salt. -/
def stretch (password salt : Bytes) : Bytes :=
  stretchFrom password salt stretchRounds (Sha256.digest (salt ++ password))

/-- The bytes by which a key is recognised. -/
def check (key : Bytes) : Bytes :=
  (Sha256.digest (Bytes.ofText "check" ++ key)).take checkLength

/-- The pad of `n` blocks from a counter on. -/
def pad (key : Bytes) : (counter n : Nat) → Bytes
  | _, 0 => []
  | counter, n + 1 =>
    Sha256.digest (key ++ Bytes.big64 (UInt64.ofNat counter)) ++ pad key (counter + 1) n

/-- Data covered by the pad of a key; covering twice uncovers. -/
def cover (key data : Bytes) : Bytes :=
  Bytes.xor data (pad key 0 ((data.length + 31) / 32))

/-- The text after the tag for a plain text, a password and a salt. -/
def lock (text password : String) (salt : Bytes) : List Char :=
  let key := stretch (Bytes.ofText password) salt
  Bytes.Base64.encode (salt ++ check key ++ cover key (Bytes.ofText text))

/-- The bytes of the plain text, if the password is right for the text after the tag. -/
def unlock? (payload : List Char) (password : String) : Option Bytes := do
  let raw ← Bytes.Base64.decode payload
  if raw.length < saltLength + checkLength then none
  else
    let key := stretch (Bytes.ofText password) (raw.take saltLength)
    if (raw.drop saltLength).take checkLength = check key then
      some (cover key (raw.drop (saltLength + checkLength)))
    else none

end Strongbox.Lock.Legacy
