import Reckoner.Expr
import Reckoner.Text.Integer

/-!
# Trees as nested applications

A tree written out node by node, each kind by its capitalised word, with operands and exponent
between parentheses: `Exponent(Constant(2), 3)`.
-/

namespace Reckoner
namespace Expr

/-- Writes a tree as nested applications after a given text. -/
def termTo (out : String) : Expr → String
  | .constant v => out ++ "Constant(" ++ decimal32 v ++ ")"
  | .negate e => termTo (out ++ "Negate(") e ++ ")"
  | .exponent b n => termTo (out ++ "Exponent(") b ++ ", " ++ decimal32 n ++ ")"
  | .addition l r => termTo (termTo (out ++ "Addition(") l ++ ", ") r ++ ")"
  | .multiplication l r => termTo (termTo (out ++ "Multiplication(") l ++ ", ") r ++ ")"

def term (e : Expr) : String := termTo "" e

/-- What is written does not depend on the text before it. -/
theorem termTo_append (e : Expr) (before out : String) :
    termTo (before ++ out) e = before ++ termTo out e := by
  induction e generalizing before out <;>
    simp only [termTo, String.append_assoc, *]

theorem termTo_eq (e : Expr) (out : String) : termTo out e = out ++ e.term := by
  simpa [term] using termTo_append e out ""

end Expr
end Reckoner
