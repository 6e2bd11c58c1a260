import Reckoner.Expr.Machine

/-!
# Size and depth

The number of nodes of a tree and the length of its longest path.  Both are algebras run on the
explicit stack, so that trees of any depth can be measured.
-/

namespace Reckoner

/-- Counts a node and the nodes counted below it. -/
def sizeAlgebra : Algebra Nat
  | .constant _ => 1
  | .negate n => n + 1
  | .exponent n _ => n + 1
  | .addition l r => l + r + 1
  | .multiplication l r => l + r + 1

/-- Puts a node on top of the deeper of its operands. -/
def depthAlgebra : Algebra Nat
  | .constant _ => 1
  | .negate d => d + 1
  | .exponent d _ => d + 1
  | .addition l r => max l r + 1
  | .multiplication l r => max l r + 1

namespace Expr

def size (e : Expr) : Nat := e.valueStack sizeAlgebra

/-- The number of nodes on the longest path from the root to a constant. -/
def depth (e : Expr) : Nat := e.valueStack depthAlgebra

end Expr

end Reckoner
