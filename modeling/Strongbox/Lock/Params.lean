/-!
# Lock — parameters

What locking in the current format costs and how long the parts of a locked text are.  Three named
presets differ in cost only.

* `Params.fault?`: the first rule that parameters break, if any.
* `Params.laneFault?`: the limit on lanes, which is looked at only after all other rules.
-/

namespace Strongbox.Lock

/-- The length of a key of AES-256. -/
def keyLength : Nat := 32

/-- The length of a nonce of the Galois counter mode. -/
def nonceLength : Nat := 12

/-- The least length of a salt. -/
def leastSaltLength : Nat := 8

/-- The greatest number of lanes that the key stretching takes. -/
def mostLanes : Nat := (1 <<< 24) - 1

/-- Parameters of locking. -/
structure Params where
  iterations : Nat
  memoryKib : Nat
  parallelism : Nat
  keyLength : Nat
  saltLength : Nat
  nonceLength : Nat
  deriving DecidableEq

/-- A rule that parameters can break; the last one only tells what a report said. -/
inductive ParamsFault where
  | keyLength (found : Nat)
  | nonceLength (found : Nat)
  | saltLength (found : Nat)
  | noWork
  | memory (lanes : Nat)
  | lanes
  | reported (text : String)
  deriving DecidableEq

/-- The rule in words. -/
def ParamsFault.message : ParamsFault → String
  | keyLength found => s!"key_len must be {Lock.keyLength} for AES-256, got {found}"
  | nonceLength found => s!"nonce_len must be {Lock.nonceLength} for AES-GCM, got {found}"
  | saltLength found => s!"salt_len must be at least {leastSaltLength}, got {found}"
  | noWork => "iterations and parallelism must be non-zero"
  | memory n => s!"memory_kib must be at least {8 * n} for {n} lane(s)"
  | lanes => "Invalid Argon2 params: too many threads"
  | reported text => text

namespace Params

/-- The first rule that the parameters break.  Eight times the lanes is a number of any size here;
as a word of 32 bits it would overflow from 2²⁹ lanes on. -/
def fault? (p : Params) : Option ParamsFault :=
  if p.keyLength ≠ Lock.keyLength then some (.keyLength p.keyLength)
  else if p.nonceLength ≠ Lock.nonceLength then some (.nonceLength p.nonceLength)
  else if p.saltLength < leastSaltLength then some (.saltLength p.saltLength)
  else if p.iterations = 0 ∨ p.parallelism = 0 then some .noWork
  else if p.memoryKib < 8 * p.parallelism then some (.memory p.parallelism)
  else none

/-- The parameters have more lanes than the key stretching takes. -/
def laneFault? (p : Params) : Option ParamsFault :=
  if mostLanes < p.parallelism then some .lanes else none

end Params

/-! ### Presets -/

/-- A named set of parameters. -/
inductive Preset where
  | default
  | highSecurity
  | lightweight
  deriving DecidableEq

namespace Preset

/-- The name of a preset. -/
def name : Preset → String
  | default => "default"
  | highSecurity => "high-security"
  | lightweight => "lightweight"

/-- The preset with a name. -/
def ofName? (name : String) : Option Preset :=
  [default, highSecurity, lightweight].find? (·.name == name)

/-- The parameters of a preset. -/
def params : Preset → Params
  | default => ⟨3, 64 * 1024, 4, keyLength, 16, nonceLength⟩
  | highSecurity => ⟨4, 256 * 1024, 4, keyLength, 16, nonceLength⟩
  | lightweight => ⟨2, 19 * 1024, 1, keyLength, 16, nonceLength⟩

end Preset

end Strongbox.Lock
