import Reckoner.Expr

/-!
# The sample

The expression that the calculator reports on.
-/

namespace Reckoner.Calculator

/-- `((2 + 4) * -1) ^ 2 + 1`. -/
def sample : Expr :=
  .addition
    (.exponent
      (.multiplication (.addition (.constant 2) (.constant 4)) (.negate (.constant 1)))
      2)
    (.constant 1)

end Reckoner.Calculator
