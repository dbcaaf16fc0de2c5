import Strongbox.Settings.Error
import Strongbox.Store.Error
import Strongbox.Time.Instant
import Strongbox.Token.Error

/-!
# Vault — errors

Why a call on the vault failed.  A call that works through many entries tells how many it had
finished when it was cancelled or met a failure.

* `message?`: the words; an error that only passes on one without words has none either.
* `withProgress`: the error that tells the number of finished entries.
-/

namespace Strongbox

/-- Why a call on the vault failed. -/
inductive VaultError where
  | emptyToken
  | emptyPassword
  | token (error : LengthError)
  | notFound (token : String)
  | expired (token : String) (moment : Instant)
  | tokenExists (token : String)
  | tokenCollision (attempts : Nat)
  | decryption (error : LockError)
  | encoding (error : LockError)
  | cancelled (processed : Nat) (reason : String)
  | interrupted (processed : Nat) (source : VaultError)
  | store (error : StoreError)
  | settings (error : SettingsError)
  deriving DecidableEq

namespace VaultError

/-- The cause in words, if it has any. -/
def message? : VaultError → Option String
  | emptyToken => some "token must not be empty"
  | emptyPassword => some "password must not be empty"
  | token error => some error.message
  | notFound name => some s!"token {Text.quoted name} not found"
  | expired name moment => some s!"token {Text.quoted name} expired at {moment.spacedText}"
  | tokenExists name => some s!"token {Text.quoted name} already exists"
  | tokenCollision attempts =>
    some s!"could not generate a unique token after {attempts} attempts"
  | decryption error => some s!"decryption failed: {error.message}"
  | encoding error => some s!"encryption failed: {error.message}"
  | cancelled processed reason =>
    some s!"operation cancelled after {processed} record(s): {reason}"
  | interrupted processed source =>
    source.message?.map fun m => s!"operation failed after {processed} record(s): {m}"
  | store error => error.message?.map fun m => s!"Persistence error: {m}"
  | settings error => error.message?.map fun m => s!"Configuration error: {m}"

/-- The number of finished entries that the error tells. -/
def processed? : VaultError → Option Nat
  | cancelled processed _ => some processed
  | interrupted processed _ => some processed
  | _ => none

/-- The call was cancelled. -/
def isCancelled : VaultError → Bool
  | cancelled _ _ => true
  | _ => false

/-- The error that tells that `n` entries were finished. -/
def withProgress (n : Nat) : VaultError → VaultError
  | cancelled _ reason => cancelled n reason
  | interrupted _ source => interrupted n source
  | e => interrupted n e

end VaultError

end Strongbox
