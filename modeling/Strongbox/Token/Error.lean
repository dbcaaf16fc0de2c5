/-!
# Token — errors

Why no token was made.
-/

namespace Strongbox

/-- The length asked for lies outside the lengths that tokens have. -/
structure LengthError where
  requested : Nat
  least : Nat
  most : Nat
  deriving DecidableEq

/-- The cause in words. -/
def LengthError.message (e : LengthError) : String :=
  s!"token length {e.requested} outside allowed range {e.least}..={e.most}"

end Strongbox
