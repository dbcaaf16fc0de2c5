import Strongbox.Settings.Basic

/-!
# Rotation — plan

How a rotation of a given number of entries is carried out: by one worker or several, and on the
whole list of entries at once or page by page.
-/

namespace Strongbox.Rotation

/-- Whether entries are worked through in order or shared out among workers. -/
inductive Mode where
  | sequential
  | parallel
  deriving DecidableEq

/-- The name of the mode in reports. -/
def Mode.name : Mode → String
  | sequential => "sequential"
  | parallel => "parallel"

/-- How a rotation is carried out. -/
structure Plan where
  total : Nat
  mode : Mode
  paged : Bool
  deriving DecidableEq

/-- The plan for a number of entries. -/
def plan (rules : RotationRules) (total : Nat) : Plan where
  total := total
  mode := if rules.parallelAbove < total then .parallel else .sequential
  paged := decide (rules.pagingAbove < total)

end Strongbox.Rotation
