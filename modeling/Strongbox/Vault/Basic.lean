import Strongbox.Program
import Strongbox.Settings.Basic

/-!
# Vault

A vault keeps secrets: it locks a text under a password, puts it into the store under a token, and
gives the text back to whoever has both.  Each call on one secret looks whether the caller has
cancelled, finds the entry, and writes at most once.

* `Vault.ofSettings`: the vault with given settings.
* `create`, `createCustom`, `read`, `update`, `delete`, `hide`, `restore`, `renew`, `inspect`: the
  calls on one secret.
-/

namespace Strongbox

/-- Settings that break no rule, and the lock that they ask for. -/
structure Vault where
  settings : Settings
  lock : Lock
  sound : settings.fault? = none
  lock_params : lock.params = settings.lock

namespace Vault

/-- The vault with given settings. -/
def ofSettings (s : Settings) : Except VaultError Vault :=
  match h : s.fault? with
  | some fault => .error (.settings (.invalid fault))
  | none =>
    match h' : s.lock.laneFault? with
    | some fault => .error (.settings (.invalid (.lock (.invalidParams fault))))
    | none =>
      have sound : s.lock.fault? = none := by
        simp only [Settings.fault?, Lock.Params.check] at h
        cases e : s.lock.fault? <;> simp_all
      .ok ⟨s, ⟨s.lock, sound, h'⟩, h, rfl⟩

/-- The vault with the usual settings. -/
def usual : Vault :=
  ⟨{}, ⟨Lock.Preset.default.params, by decide⟩, by decide, rfl⟩

/-- The generator of tokens that the settings ask for. -/
def generator (v : Vault) : Token.Generator :=
  .ofBounds v.settings.tokens.least v.settings.tokens.most

/-! ### Conditions and look-ups -/

/-- Fails if there is no token. -/
def requireToken (token : String) : Job Unit :=
  .ofExcept (if token.isEmpty then .error .emptyToken else .ok ())

/-- Fails if there is no password. -/
def requirePassword (password : String) : Job Unit :=
  .ofExcept (if password.isEmpty then .error .emptyPassword else .ok ())

/-- The entry with a token, hidden or not. -/
def anyEntry (token : String) : Job Entry := do
  match ← Job.call (.findToken token) with
  | some e => return e
  | none => throw (.notFound token)

/-- The active entry with a token. -/
def activeEntry (token : String) : Job Entry := do
  match ← Job.call (.findToken token) with
  | some e => if e.isHidden then throw (.notFound token) else return e
  | none => throw (.notFound token)

/-- The first of `left` drawn tokens that no entry has. -/
def freeToken (v : Vault) (length : Nat) : (left : Nat) → Job String
  | 0 => throw (.tokenCollision v.settings.tokens.attempts)
  | left + 1 => do
    let candidate ← Job.reply (.token length)
    let token ← Job.ofExcept (candidate.mapError .token)
    match ← Job.call (.findToken token) with
    | none => return token
    | some _ => freeToken v length left

/-- A locked text for a plain text and a password.  The random bytes are drawn before it shows
whether the text can be locked. -/
def lockText (v : Vault) (text password : String) : Job String := do
  let head ← Job.reply (.random v.lock.headLength)
  Job.ofExcept ((v.lock.tryLock text password head).mapError .encoding)

/-- A new entry put into the store. -/
def store (v : Vault) (token text password : String) (expires : Option Instant) : Job Unit := do
  let locked ← v.lockText text password
  let now ← Job.reply .now
  let id ← Job.reply .freshId
  Job.call (.create (Entry.fresh id token locked expires now))

/-! ### Calls on one secret -/

/-- A secret kept under a new token of a given length, which is the answer. -/
def create (v : Vault) (text password : String) (length : Nat) (expires : Option Instant) :
    Job String := do
  requirePassword password
  Job.checkpoint 0
  let token ← v.freeToken length v.settings.tokens.attempts
  v.store token text password expires
  return token

/-- A secret kept under a new token of the usual length, which is the answer. -/
def createDefault (v : Vault) (text password : String) (expires : Option Instant) : Job String :=
  v.create text password v.settings.tokens.usual expires

/-- A secret kept under a given token. -/
def createCustom (v : Vault) (token text password : String) (expires : Option Instant) :
    Job Unit := do
  requireToken token
  requirePassword password
  Job.checkpoint 0
  match ← Job.call (.findToken token) with
  | some _ => throw (.tokenExists token)
  | none => v.store token text password expires

/-- The text of a secret. -/
def read (v : Vault) (token password : String) : Job String := do
  requireToken token
  requirePassword password
  Job.checkpoint 0
  let e ← activeEntry token
  let now ← Job.reply .now
  match e.expires with
  | some moment =>
    if moment < now then throw (.expired token moment)
    else Job.ofExcept ((v.lock.unlock e.locked password).mapError .decryption)
  | none => Job.ofExcept ((v.lock.unlock e.locked password).mapError .decryption)

/-- A new text and password for a secret. -/
def update (v : Vault) (token text password : String) : Job Unit := do
  requireToken token
  requirePassword password
  Job.checkpoint 0
  let e ← activeEntry token
  let locked ← v.lockText text password
  let now ← Job.reply .now
  Job.call (.update { e with locked, updated := now } [.locked, .updated])

/-- A secret taken out of the store, hidden or not. -/
def delete (token : String) : Job Unit := do
  requireToken token
  Job.checkpoint 0
  let e ← anyEntry token
  Job.call (.erase e.id)

/-- A secret hidden, so that it is no longer active. -/
def hide (token : String) : Job Unit := do
  requireToken token
  Job.checkpoint 0
  let e ← activeEntry token
  let now ← Job.reply .now
  Job.call (.update { e with hidden := some now, updated := now } [.hidden, .updated])

/-- A hidden secret made active again. -/
def restore (token : String) : Job Unit := do
  requireToken token
  Job.checkpoint 0
  let e ← anyEntry token
  if e.isHidden then
    let now ← Job.reply .now
    Job.call (.update { e with hidden := none, updated := now } [.hidden, .updated])
  else throw (.notFound token)

/-- A new expiry for a secret, or none. -/
def renew (token : String) (expires : Option Instant) : Job Unit := do
  requireToken token
  Job.checkpoint 0
  let e ← activeEntry token
  let now ← Job.reply .now
  Job.call (.update { e with expires, updated := now } [.expires, .updated])

/-- What may be told of a secret, hidden or not, without its password. -/
def inspect (token : String) : Job EntryInfo := do
  requireToken token
  Job.checkpoint 0
  return (← anyEntry token).info

end Vault

end Strongbox
