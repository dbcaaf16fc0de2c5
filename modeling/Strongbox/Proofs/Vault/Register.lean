import Strongbox.Proofs.Scene
import Strongbox.Vault.Basic

/-!
# Vault — the register

What a vault answers to calls on one secret can be told from a register: for each token the text
and the password last written, the locked text that was made of them, the instants, and nothing of
ids and stores.

* `Call`, `perform`: the calls on one secret, as data and as programs.
* `Vault.Locks`: the locked texts that the vault may make of a text and a password.
* `Register.Gives`: the answer to a call, and the register after it.  It is determined but for two
  things: the token that `create` draws, and the random bytes in a locked text.
* `Session`, `Register.Follows`: calls one after another, made to a vault and to a register.
-/

namespace Strongbox

namespace Vault

/-! ### Calls as data -/

/-- A call on one secret. -/
inductive Call where
  | create (text password : String) (length : Nat) (expires : Option Instant)
  | createDefault (text password : String) (expires : Option Instant)
  | createCustom (token text password : String) (expires : Option Instant)
  | read (token password : String)
  | update (token text password : String)
  | delete (token : String)
  | hide (token : String)
  | restore (token : String)
  | renew (token : String) (expires : Option Instant)
  | inspect (token : String)

namespace Call

/-- The type of a call's answer. -/
@[reducible] def Answer : Call → Type
  | create _ _ _ _ | createDefault _ _ _ | read _ _ => String
  | inspect _ => EntryInfo
  | createCustom _ _ _ _ | update _ _ _ | delete _ | hide _ | restore _ | renew _ _ => Unit

/-- The token that the caller gives. -/
def token? : Call → Option String
  | create _ _ _ _ | createDefault _ _ _ => none
  | createCustom token _ _ _ | read token _ | update token _ _ | delete token | hide token
  | restore token | renew token _ | inspect token => some token

/-- The password that the caller gives. -/
def password? : Call → Option String
  | create _ password _ _ | createDefault _ password _ | createCustom _ _ password _
  | read _ password | update _ _ password => some password
  | delete _ | hide _ | restore _ | renew _ _ | inspect _ => none

/-- Why a call is refused before anything is looked up. -/
def refusal? (c : Call) : Option VaultError :=
  if c.token? = some "" then some .emptyToken
  else if c.password? = some "" then some .emptyPassword
  else none

end Call

/-- The program of a call. -/
def perform (v : Vault) : (c : Call) → Job c.Answer
  | .create text password length expires => v.create text password length expires
  | .createDefault text password expires => v.createDefault text password expires
  | .createCustom token text password expires => v.createCustom token text password expires
  | .read token password => v.read token password
  | .update token text password => v.update token text password
  | .delete token => Vault.delete token
  | .hide token => Vault.hide token
  | .restore token => Vault.restore token
  | .renew token expires => Vault.renew token expires
  | .inspect token => Vault.inspect token

/-- The generator of the vault makes the token when a given length is asked for. -/
def Makes (v : Vault) (length : Nat) (token : String) : Prop :=
  ∃ millis supply rest, v.generator.make length millis supply = .ok (token, rest)

/-- The vault makes the locked text of the text and the password, with some random bytes. -/
def Locks (v : Vault) (text password locked : String) : Prop :=
  ∃ head : Bytes, head.length = v.lock.headLength ∧ v.lock.tryLock text password head = .ok locked

theorem locks_of_fits {v : Vault} {text password : String} {head : Bytes}
    (h : v.lock.Fits text password head) : v.Locks text password (v.lock.lock text password head) :=
  ⟨head, h.length, h.tryLock⟩

theorem Locks.unlock {v : Vault} {text password locked : String}
    (h : v.Locks text password locked) : v.lock.unlock locked password = .ok text := by
  obtain ⟨head, hlen, hlock⟩ := h
  obtain ⟨hfault, rfl⟩ := Lock.tryLock_eq_ok_iff.1 hlock
  exact Lock.unlock_lock ⟨hlen, hfault⟩

/-- What the vault makes has the tag of the current format. -/
theorem Locks.format {v : Vault} {text password locked : String}
    (h : v.Locks text password locked) : Lock.Format.of? locked = some .current := by
  obtain ⟨head, -, hlock⟩ := h
  obtain ⟨-, rfl⟩ := Lock.tryLock_eq_ok_iff.1 hlock
  rw [Lock.lock, Lock.Format.of?, Lock.Format.split?_append]
  rfl

end Vault

/-! ### The register -/

/-- What a caller knows of a secret, and its text as it was locked. -/
structure Secret where
  text : String
  password : String
  locked : String
  created : Instant
  updated : Instant
  expires : Option Instant
  hidden : Option Instant

/-- A new active secret. -/
def Secret.fresh (text password locked : String) (expires : Option Instant) (now : Instant) :
    Secret :=
  ⟨text, password, locked, now, now, expires, none⟩

/-- What comes of opening a secret: its text under its password, and under any other password what
the lock makes of the locked text. -/
def Secret.Opens (v : Vault) (x : Secret) (password : String) (r : Except VaultError String) :
    Prop :=
  if password = x.password then r = .ok x.text
  else r = (v.lock.unlock x.locked password).mapError .decryption

/-- The secrets by token. -/
abbrev Register : Type :=
  String → Option Secret

namespace Register

/-- No secrets. -/
def empty : Register := fun _ => none

/-- The register with a secret under a token, or without one. -/
def set (R : Register) (token : String) (x : Option Secret) : Register :=
  fun t => if t = token then x else R t

/-- The active secret under a token. -/
def active? (R : Register) (token : String) : Option Secret :=
  (R token).filter (!·.hidden.isSome)

/-- The hidden secret under a token. -/
def hidden? (R : Register) (token : String) : Option Secret :=
  (R token).filter (·.hidden.isSome)

theorem active?_eq {R : Register} {token : String} {x : Secret} (h : R token = some x) :
    R.active? token = if x.hidden.isSome then none else some x := by
  rw [active?, h]
  cases hx : x.hidden <;> simp [hx]

theorem hidden?_eq {R : Register} {token : String} {x : Secret} (h : R token = some x) :
    R.hidden? token = if x.hidden.isSome then some x else none := by
  rw [hidden?, h]
  cases hx : x.hidden <;> simp [hx]

/-- A text is locked, and the secret made with the locked text is put under a token; or it cannot be
locked, and the register stays as it was. -/
def Puts (v : Vault) (R : Register) (token text password : String) (make : String → Secret)
    (r : Except VaultError Unit) (R' : Register) : Prop :=
  match v.lock.lockFault? text password with
  | none => ∃ locked, v.Locks text password locked ∧ r = .ok () ∧
      R' = R.set token (some (make locked))
  | some error => r = .error (.encoding error) ∧ R' = R

theorem puts_of_fault {v : Vault} {R : Register} {token text password : String}
    {make : String → Secret} {error : LockError}
    (h : v.lock.lockFault? text password = some error) :
    R.Puts v token text password make (.error (.encoding error)) R := by
  rw [Puts, h]
  exact ⟨rfl, rfl⟩

theorem puts_of_fits {v : Vault} {R : Register} {token text password : String}
    {make : String → Secret} {head : Bytes} (h : v.lock.Fits text password head) :
    R.Puts v token text password make (.ok ())
      (R.set token (some (make (v.lock.lock text password head)))) := by
  rw [Puts, h.fault]
  exact ⟨_, Vault.locks_of_fits h, rfl, rfl⟩

/-- A new secret is put under a token of a given length that was free, unless its text cannot be
locked; or there is no token: the length is out of bounds, or each one drawn was taken. -/
def Creates (v : Vault) (R : Register) (now : Instant) (text password : String) (length : Nat)
    (expires : Option Instant) (r : Except VaultError String) (R' : Register) : Prop :=
  if v.settings.tokens.least ≤ length ∧ length ≤ v.settings.tokens.most then
    (∃ token put, v.Makes length token ∧ R token = none ∧
      R.Puts v token text password (fun locked => .fresh text password locked expires now) put R' ∧
      r = put.map fun _ => token) ∨
    ∃ drawn : List String, drawn.length = v.settings.tokens.attempts ∧
      (∀ token ∈ drawn, v.Makes length token ∧ (R token).isSome) ∧
      r = .error (.tokenCollision v.settings.tokens.attempts) ∧ R' = R
  else
    r = .error (.token ⟨length, v.settings.tokens.least, v.settings.tokens.most⟩) ∧ R' = R

theorem creates_of_puts {v : Vault} {R R' : Register} {now : Instant}
    {token text password : String} {length : Nat} {expires : Option Instant}
    {put : Except VaultError Unit}
    (hbounds : v.settings.tokens.least ≤ length ∧ length ≤ v.settings.tokens.most)
    (hmake : v.Makes length token) (hfree : R token = none)
    (hput : R.Puts v token text password (fun locked => .fresh text password locked expires now) put
      R') :
    R.Creates v now text password length expires (put.map fun _ => token) R' := by
  rw [Creates, if_pos hbounds]
  exact .inl ⟨token, put, hmake, hfree, hput, rfl⟩

/-- An active secret that is not expired is opened. -/
def Reads (v : Vault) (R : Register) (now : Instant) (token password : String)
    (r : Except VaultError String) : Prop :=
  match R.active? token with
  | none => r = .error (.notFound token)
  | some x =>
    match x.expires.filter (· < now) with
    | some moment => r = .error (.expired token moment)
    | none => x.Opens v password r

/-- The secret that was found is changed or taken out. -/
def Changes (R : Register) (token : String) (found : Option Secret)
    (change : Secret → Option Secret) (r : Except VaultError Unit) (R' : Register) : Prop :=
  match found with
  | some x => r = .ok () ∧ R' = R.set token (change x)
  | none => r = .error (.notFound token) ∧ R' = R

theorem changes_none {R : Register} {token : String} {found : Option Secret}
    {change : Secret → Option Secret} (h : found = none) :
    R.Changes token found change (.error (.notFound token)) R := by
  rw [h]
  exact ⟨rfl, rfl⟩

theorem changes_some {R : Register} {token : String} {found : Option Secret} {x : Secret}
    {change : Secret → Option Secret} (h : found = some x) :
    R.Changes token found change (.ok ()) (R.set token (change x)) := by
  rw [h]
  exact ⟨rfl, rfl⟩

/-- What a call that is not refused answers at an instant, and the register after it. -/
def Answers (v : Vault) (now : Instant) (R : Register) :
    (c : Vault.Call) → Except VaultError c.Answer → Register → Prop
  | .create text password length expires, r, R' =>
    R.Creates v now text password length expires r R'
  | .createDefault text password expires, r, R' =>
    R.Creates v now text password v.settings.tokens.usual expires r R'
  | .createCustom token text password expires, r, R' =>
    match R token with
    | some _ => r = .error (.tokenExists token) ∧ R' = R
    | none =>
      R.Puts v token text password (fun locked => .fresh text password locked expires now) r R'
  | .read token password, r, R' => R.Reads v now token password r ∧ R' = R
  | .update token text password, r, R' =>
    match R.active? token with
    | some x =>
      R.Puts v token text password (fun locked => { x with text, password, locked, updated := now })
        r R'
    | none => r = .error (.notFound token) ∧ R' = R
  | .delete token, r, R' => R.Changes token (R token) (fun _ => none) r R'
  | .hide token, r, R' =>
    R.Changes token (R.active? token)
      (fun x => some { x with hidden := some now, updated := now }) r R'
  | .restore token, r, R' =>
    R.Changes token (R.hidden? token) (fun x => some { x with hidden := none, updated := now }) r R'
  | .renew token expires, r, R' =>
    R.Changes token (R.active? token) (fun x => some { x with expires, updated := now }) r R'
  | .inspect token, r, R' =>
    (match R token with
      | some x => r = .ok ⟨token, x.created, x.updated, x.expires, x.hidden, some .current⟩
      | none => r = .error (.notFound token)) ∧ R' = R

/-- What a call answers at an instant, and the register after it. -/
def Gives (v : Vault) (now : Instant) (R : Register) (c : Vault.Call)
    (r : Except VaultError c.Answer) (R' : Register) : Prop :=
  match c.refusal? with
  | some error => r = .error error ∧ R' = R
  | none => R.Answers v now c r R'

theorem gives_of_refusal {v : Vault} {now : Instant} {R : Register} {c : Vault.Call}
    {error : VaultError} (h : c.refusal? = some error) : R.Gives v now c (.error error) R := by
  rw [Gives, h]
  exact ⟨rfl, rfl⟩

theorem gives_of_answers {v : Vault} {now : Instant} {R R' : Register} {c : Vault.Call}
    {r : Except VaultError c.Answer} (h : c.refusal? = none) (ha : R.Answers v now c r R') :
    R.Gives v now c r R' := by
  rw [Gives, h]
  exact ha

end Register

/-! ### Calls one after another -/

/-- A call made at an instant, and its answer. -/
structure Event where
  now : Instant
  call : Vault.Call
  answer : Except VaultError call.Answer

/-- Calm surroundings at an instant, in which new ids are those of no entry and tokens come from
the generator of the vault. -/
def Vault.manner (v : Vault) (now : Instant) : Manner where
  failing := False
  cancelling := False
  shows := (· = now)
  gives := Backing.Lacks
  draws length token := ∃ millis supply, token = (v.generator.make length millis supply).map (·.1)

/-- Calls made to a vault one after another, from one scene to another. -/
inductive Session (v : Vault) : Scene → List Event → Scene → Prop where
  | nil {s : Scene} : Session v s [] s
  | cons {s t s' : Scene} {a : Event} {rest : List Event}
      (h : (v.perform a.call).Ends (v.manner a.now).answers s a.answer t)
      (hrest : Session v t rest s') : Session v s (a :: rest) s'

/-- The same calls made to a register. -/
inductive Register.Follows (v : Vault) : Register → List Event → Register → Prop where
  | nil {R : Register} : Follows v R [] R
  | cons {R R₁ R' : Register} {a : Event} {rest : List Event}
      (h : R.Gives v a.now a.call a.answer R₁)
      (hrest : Follows v R₁ rest R') : Follows v R (a :: rest) R'

end Strongbox
