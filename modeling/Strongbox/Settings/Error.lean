import Strongbox.Lock.Error
import Strongbox.Text.Quoted

/-!
# Settings — errors

Why settings could not be had.  A text that is no document of settings and a file that does not
read have no words of their own.
-/

namespace Strongbox

/-- A rule that settings can break; the last one only tells what a report said. -/
inductive SettingsFault where
  | lock (error : LockError)
  | shortTokens (floor : Nat)
  | tokenBounds
  | defaultLength
  | noAttempts
  | zero (name : String)
  | reported (text : String)
  deriving DecidableEq

/-- The rule in words. -/
def SettingsFault.message : SettingsFault → String
  | lock error => error.message
  | shortTokens floor => s!"tokens.min_length must be at least {floor}"
  | tokenBounds => "tokens.max_length must not be below tokens.min_length"
  | defaultLength => "tokens.default_length must lie within the token bounds"
  | noAttempts => "tokens.create_attempts must be non-zero"
  | zero name => s!"rotation.{name} must be non-zero"
  | reported text => text

/-- Why settings could not be had. -/
inductive SettingsError where
  | io
  | malformed
  | unknownPreset (name : String)
  | invalid (fault : SettingsFault)
  deriving DecidableEq

/-- The cause in words, if it has any. -/
def SettingsError.message? : SettingsError → Option String
  | io => none
  | malformed => none
  | unknownPreset name => some s!"unknown codec preset {Text.quoted name}"
  | invalid fault => some s!"invalid configuration: {fault.message}"

end Strongbox
