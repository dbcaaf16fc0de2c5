import Strongbox.Lock.Basic
import Strongbox.Settings.Error
import Strongbox.Token.Generator

/-!
# Settings

Settings fix the parameters of the lock, the lengths of tokens, and how a rotation divides its
work.  They are checked rule by rule; the first broken rule is reported.

* `Settings.check`: the rules.  Settings that break none give a token generator whose bounds are
  the ones set, and no size that is used to divide work is zero.
-/

namespace Strongbox

/-- The lengths of tokens, and how often a taken one is drawn again. -/
structure TokenRules where
  least : Nat := 15
  most : Nat := 40
  usual : Nat := 32
  attempts : Nat := 3
  deriving DecidableEq

/-- How a rotation divides its work. -/
structure RotationRules where
  pagingAbove : Nat := 1000
  pageSize : Nat := 1000
  parallelAbove : Nat := 10000
  batchSize : Nat := 100
  workers : Nat := 10
  queueDepth : Nat := 20
  deriving DecidableEq

/-- What a vault is set up with. -/
structure Settings where
  lock : Lock.Params := Lock.Preset.default.params
  tokens : TokenRules := {}
  rotation : RotationRules := {}
  deriving DecidableEq

/-- The first rule that the lengths of tokens break. -/
def TokenRules.fault? (t : TokenRules) : Option SettingsFault :=
  if t.least < Token.floor then some (.shortTokens Token.floor)
  else if t.most < t.least then some .tokenBounds
  else if t.usual < t.least ∨ t.most < t.usual then some .defaultLength
  else if t.attempts = 0 then some .noAttempts
  else none

/-- The first size of a rotation that is zero. -/
def RotationRules.fault? (r : RotationRules) : Option SettingsFault :=
  if r.pageSize = 0 then some (.zero "page_size")
  else if r.batchSize = 0 then some (.zero "batch_size")
  else if r.workers = 0 then some (.zero "workers")
  else if r.queueDepth = 0 then some (.zero "queue_depth")
  else none

namespace Settings

/-- The first rule that the settings break. -/
def fault? (s : Settings) : Option SettingsFault :=
  match s.lock.check with
  | .error e => some (.lock e)
  | .ok () => s.tokens.fault? <|> s.rotation.fault?

/-- The settings break no rule. -/
def check (s : Settings) : Except SettingsError Unit :=
  match s.fault? with
  | some fault => .error (.invalid fault)
  | none => .ok ()

end Settings

end Strongbox
