import Std.Data.HashSet
import Strongbox.Batches
import Strongbox.Vault.Basic
import Strongbox.Vault.Progress
import Strongbox.Vault.PurgeMode

/-!
# Vault — calls on many secrets

* `readMany`: the texts of all secrets among the given tokens that are active and not expired.
* `purge`: the number of expired secrets that were hidden or erased.
-/

namespace Strongbox.Vault

/-- The tokens that are not empty, each once, in the order of their first mention. -/
def wanted (tokens : List String) : List String :=
  let step := fun (seen : Std.HashSet String × List String) token =>
    if token.isEmpty || seen.1.contains token then seen
    else (seen.1.insert token, token :: seen.2)
  (tokens.foldl step (∅, [])).2.reverse

/-- Texts by token, with one more; it takes the place of an earlier one of its token. -/
def putText (found : List (String × String)) (token text : String) : List (String × String) :=
  if found.any (·.1 == token) then
    found.map fun p => if p.1 = token then (token, text) else p
  else found ++ [(token, text)]

/-- The texts of entries, after those found before. -/
def unlockAll (v : Vault) (password : String) :
    (found : List (String × String)) → List Entry → Except VaultError (List (String × String))
  | found, [] => .ok found
  | found, e :: es =>
    match v.lock.unlock e.locked password with
    | .error error => .error (.decryption error)
    | .ok text => unlockAll v password (putText found e.token text) es

/-- The texts of the secrets in batches of tokens, after those found before. -/
def readBatches (v : Vault) (password : String) (now : Instant) :
    (found : List (String × String)) → List (List String) → Job (List (String × String))
  | found, [] => return found
  | found, tokens :: rest => do
    Job.checkpoint 0
    let entries ← Job.call (.list { filter := { Filter.active with tokens := some tokens } })
    let found ← Job.ofExcept (v.unlockAll password found (entries.filter (!·.isExpired now)))
    readBatches v password now found rest

/-- The texts by token of all secrets among the given tokens that are active and not expired. -/
def readMany (v : Vault) (tokens : List String) (password : String) :
    Job (List (String × String)) := do
  requirePassword password
  Job.checkpoint 0
  let now ← Job.reply .now
  v.readBatches password now [] (batches v.settings.rotation.pageSize (wanted tokens))

/-- An expired entry hidden or erased. -/
def purgeEntry (mode : PurgeMode) (now : Instant) (e : Entry) : Job Bool := do
  match mode with
  | .soft =>
    Job.call (.update { e with hidden := some now, updated := now } [.hidden, .updated])
  | .hard => Job.call (.erase e.id)
  return true

/-- The entries that a mode of purging looks at. -/
def purgeFilter : PurgeMode → Filter
  | .soft => .active
  | .hard => .all

/-- The work of a purge, and how far it came. -/
def purgeProgress (v : Vault) (mode : PurgeMode) : Program Progress := do
  let now ← Program.reply .now
  let extent ← Program.reply .extent
  eachPage (purgeFilter mode) v.settings.rotation.pageSize true
    (fun n page => eachEntry (purgeEntry mode now) n (page.filter (·.isExpired now)))
    (extent + 1) 0 0

/-- The number of expired secrets that were hidden or erased. -/
def purge (v : Vault) (mode : PurgeMode) : Job Nat := do
  Job.checkpoint 0
  let p ← ExceptT.lift (v.purgeProgress mode)
  Job.ofExcept p.result

end Strongbox.Vault
