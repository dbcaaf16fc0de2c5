import Strongbox.Rotation.Plan
import Strongbox.Rotation.Pool
import Strongbox.Vault.Basic

/-!
# Rotation

A rotation moves every entry that an old password unlocks to a new password, and leaves all others
as they are.  Its plan says whether it works in order or with a pool, and on the whole list or page
by page.

* `relockEntry`: one entry moved, if the old password unlocks it.
* `Vault.rotate`: the number of entries moved.
-/

namespace Strongbox

namespace Rotation

/-- An entry moved from an old password to a new one; false if the old one does not unlock it. -/
def relockEntry (v : Vault) (old new : String) (e : Entry) : Job Bool :=
  match v.lock.unlock e.locked old with
  | .error _ => return false
  | .ok text => do
    let locked ← v.lockText text new
    let now ← Job.reply .now
    Job.call (.update { e with locked, updated := now } [.locked, .updated])
    return true

/-- The work on a list of entries in one of the two modes, `n` entries being moved before. -/
def relockAll (v : Vault) (old new : String) (mode : Mode) (n : Nat) (entries : List Entry) :
    Program Progress :=
  match mode with
  | .sequential => eachEntry (relockEntry v old new) n entries
  | .parallel => dispatch (relockEntry v old new) v.settings.rotation n entries

/-- The work that a plan asks for, and how far it came. -/
def progress (v : Vault) (old new : String) (plan : Plan) : Program Progress := do
  if plan.paged then
    let extent ← Program.reply .extent
    eachPage .all v.settings.rotation.pageSize false (relockAll v old new plan.mode)
      (extent + 1) 0 0
  else
    match ← (Job.call (.list { filter := .all })).run with
    | .error error => return ⟨0, some error⟩
    | .ok entries => relockAll v old new plan.mode 0 entries

end Rotation

/-- The number of entries moved from an old password to a new one. -/
def Vault.rotate (v : Vault) (old new : String) : Job Nat := do
  requirePassword old
  requirePassword new
  Job.checkpoint 0
  let total ← Job.call (.count .all)
  if total = 0 then return 0
  else
    let p ← ExceptT.lift (Rotation.progress v old new (Rotation.plan v.settings.rotation total))
    Job.ofExcept p.result

end Strongbox
