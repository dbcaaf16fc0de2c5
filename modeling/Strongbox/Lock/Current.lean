import Strongbox.Bytes.Base64
import Strongbox.Cipher.Gcm
import Strongbox.Lock.Error
import Strongbox.Stretch.Argon2id

/-!
# Lock — the current format

A key is stretched from the password and a salt by Argon2id, and the text is encrypted under it
with AES-256 in Galois counter mode.  Salt, nonce, encrypted text and tag stand one after the
other, in base 64.
-/

namespace Strongbox.Lock.Current

/-- The key for a password and a salt. -/
def stretch (p : Params) (password : String) (salt : Bytes) : Bytes :=
  Argon2id.key ⟨p.memoryKib, p.iterations, p.parallelism⟩ keyLength (Bytes.ofText password) salt

/-- Why no key can be stretched from a password, if so. -/
def stretchFault? (p : Params) (password : String) : Option LockError :=
  (Argon2id.refusal? password.utf8ByteSize p.saltLength).map fun why =>
    .keyDerivation s!"Argon2 failed: {why}"

/-- Why a text cannot be locked under a password, if so. -/
def lockFault? (p : Params) (text password : String) : Option LockError :=
  match stretchFault? p password with
  | some error => some error
  | none => if Gcm.mostText < text.utf8ByteSize then some .encryption else none

/-- The text after the tag for a plain text, a password and the random bytes `head`, none of them
too long. -/
def lock (p : Params) (text password : String) (head : Bytes) : List Char :=
  let key := stretch p password (head.take p.saltLength)
  Bytes.Base64.encode
    (head ++ Gcm.encrypt key (head.drop p.saltLength) (Bytes.ofText text))

/-- Salt and nonce, and what was encrypted, in the text after the tag. -/
def parts? (p : Params) (payload : List Char) : Option (Bytes × Bytes) := do
  let raw ← Bytes.Base64.decode payload
  let headLength := p.saltLength + p.nonceLength
  if raw.length < headLength + Gcm.tagLength then none
  else return (raw.take headLength, raw.drop headLength)

/-- The bytes of the plain text, if the password is right for the text after the tag and nothing
in it was changed. -/
def unlock (p : Params) (payload : List Char) (password : String) : Except LockError Bytes :=
  match parts? p payload with
  | none => .error .decryption
  | some (head, encrypted) =>
    match stretchFault? p password with
    | some error => .error error
    | none =>
      let key := stretch p password (head.take p.saltLength)
      LockError.orDamaged (Gcm.decrypt? key (head.drop p.saltLength) encrypted)

end Strongbox.Lock.Current
