import Strongbox.Vault.Error

/-!
# Cancellation

A cancellation is shared by everyone who holds it.  Cancelling sets the reason, unless one was set
before, and then raises the flag; a check fails once the flag is up.
-/

namespace Strongbox

/-- The state of a cancellation. -/
structure Cancellation where
  reason : Option String := none
  raised : Bool := false
  deriving DecidableEq

namespace Cancellation

/-- The reason of a caller who gives none. -/
def callerReason : String := "cancelled by caller"

/-- A cancellation that nobody used. -/
def idle : Cancellation := {}

/-- The reason set, unless there is one. -/
def setReason (c : Cancellation) (reason : String) : Cancellation :=
  { c with reason := some (c.reason.getD reason) }

/-- The flag raised. -/
def raise (c : Cancellation) : Cancellation :=
  { c with raised := true }

/-- Cancelled with a reason. -/
def cancelWith (c : Cancellation) (reason : String) : Cancellation :=
  (c.setReason reason).raise

/-- Cancelled without a reason given. -/
def cancel (c : Cancellation) : Cancellation :=
  c.cancelWith callerReason

/-- Fails, telling that `n` entries are finished, once the flag is up. -/
def check (c : Cancellation) (n : Nat) : Except VaultError Unit :=
  if c.raised then .error (.cancelled n (c.reason.getD callerReason)) else .ok ()

end Cancellation

end Strongbox
