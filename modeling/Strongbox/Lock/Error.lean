import Strongbox.Lock.Params

/-!
# Lock — errors

Why a text could not be locked or unlocked.  A wrong password and damaged data are one cause, so
that an answer does not tell them apart.
-/

namespace Strongbox

/-- Why a text could not be locked or unlocked. -/
inductive LockError where
  | unknownVersion
  | decryption
  | keyDerivation (detail : String)
  | encryption
  | invalidParams (fault : Lock.ParamsFault)
  deriving DecidableEq

/-- The cause in words. -/
def LockError.message : LockError → String
  | unknownVersion => "unknown ciphertext format version"
  | decryption => "decryption failed (wrong password or corrupted data)"
  | keyDerivation detail => s!"key derivation failed: {detail}"
  | encryption => "encryption failed"
  | invalidParams fault => s!"invalid codec parameters: {fault.message}"

/-- What was read, if anything; otherwise the data is damaged or the password is wrong. -/
def LockError.orDamaged {α : Type} : Option α → Except LockError α
  | some a => .ok a
  | none => .error .decryption

theorem LockError.orDamaged_eq_ok {α : Type} {x : Option α} {a : α} :
    orDamaged x = .ok a ↔ x = some a := by
  cases x <;> simp [orDamaged]

theorem LockError.eq_of_orDamaged {α : Type} {x : Option α} {error : LockError}
    (h : orDamaged x = .error error) : error = .decryption := by
  cases x <;> simp_all [orDamaged]

end Strongbox
