import Strongbox.Lock.Current
import Strongbox.Lock.Error
import Strongbox.Lock.Format
import Strongbox.Lock.Legacy

/-!
# Lock

A lock turns a text and a password into a locked text, and back.  It is made from parameters that
break no rule, writes the current format, and reads both formats.

* `Lock.ofParams`: the lock with given parameters.
* `Lock.lock`: the locked text of a plain text.
* `Lock.tryLock`, `Lock.unlock`: writing and reading locked texts, each with the reasons to fail.
* `Lock.relock?`: a locked text moved from one password to another.
-/

namespace Strongbox

/-- A lock: parameters that break no rule. -/
structure Lock where
  params : Lock.Params
  sound : params.fault? = none ∧ params.laneFault? = none

namespace Lock

/-- The parameters break no rule on their own; the limit on lanes is not looked at. -/
def Params.check (p : Params) : Except LockError Unit :=
  match p.fault? with
  | some fault => .error (.invalidParams fault)
  | none => .ok ()

/-- The lock with given parameters. -/
def ofParams (p : Params) : Except LockError Lock :=
  match h : p.fault? with
  | some fault => .error (.invalidParams fault)
  | none =>
    match h' : p.laneFault? with
    | some fault => .error (.invalidParams fault)
    | none => .ok ⟨p, h, h'⟩

/-- The number of random bytes that locking a text takes. -/
def headLength (lock : Lock) : Nat :=
  lock.params.saltLength + lock.params.nonceLength

/-- Why a text cannot be locked under a password, if so: the password or the salt has more bytes
than the key stretching takes, or the text has more than the cipher takes. -/
def lockFault? (l : Lock) (text password : String) : Option LockError :=
  Current.lockFault? l.params text password

/-- The locked text for a plain text, a password and `headLength` random bytes, none of them too
long. -/
def lock (l : Lock) (text password : String) (head : Bytes) : String :=
  Format.current.tag ++ String.ofList (Current.lock l.params text password head)

/-- The locked text for a plain text, a password and `headLength` random bytes. -/
def tryLock (l : Lock) (text password : String) (head : Bytes) : Except LockError String :=
  match l.lockFault? text password with
  | some error => .error error
  | none => .ok (l.lock text password head)

/-- The locked text in the legacy format. -/
def lockLegacy (text password : String) (salt : Bytes) : String :=
  Format.legacy.tag ++ String.ofList (Legacy.lock text password salt)

/-- The plain text of a locked text under a password. -/
def unlock (l : Lock) (locked password : String) : Except LockError String :=
  match Format.split? locked with
  | none => .error .unknownVersion
  | some (.current, payload) =>
    match Current.unlock l.params payload password with
    | .error error => .error error
    | .ok bytes => LockError.orDamaged (Bytes.toText? bytes)
  | some (.legacy, payload) =>
    LockError.orDamaged ((Legacy.unlock? payload password).bind Bytes.toText?)

/-- The locked text under a new password, if the old one unlocks it and the new one can lock what
was found. -/
def relock? (l : Lock) (locked old new : String) (head : Bytes) : Option String :=
  match l.unlock locked old with
  | .ok text => (l.tryLock text new head).toOption
  | .error _ => none

end Lock

end Strongbox
