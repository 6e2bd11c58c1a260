import Reckoner.Expr
import Reckoner.Text.Integer

/-!
# Rendering

A tree as infix text.  Each node pads itself with blanks, sums and products are put between
parentheses, and a power ends in the digits of its exponent.  `Expr.render` follows the tree;
`Expr.renderStack` writes the same text from a stack of pieces, for trees of any depth.
-/

namespace Reckoner
namespace Expr

/-- Writes a tree as infix text after a given text. -/
def renderTo (out : String) : Expr → String
  | .constant v => out ++ " " ++ decimal32 v ++ " "
  | .negate e => renderTo (out ++ " -") e ++ " "
  | .exponent b n => renderTo (out ++ " ") b ++ " ^ " ++ decimal32 n
  | .addition l r => renderTo (renderTo (out ++ " (") l ++ " + ") r ++ ") "
  | .multiplication l r => renderTo (renderTo (out ++ " (") l ++ " * ") r ++ ") "

def render (e : Expr) : String := renderTo "" e

/-- What is written does not depend on the text before it. -/
theorem renderTo_append (e : Expr) (before out : String) :
    renderTo (before ++ out) e = before ++ renderTo out e := by
  induction e generalizing before out <;>
    simp only [renderTo, String.append_assoc, *]

theorem renderTo_eq (e : Expr) (out : String) : renderTo out e = out ++ e.render := by
  simpa [render] using renderTo_append e out ""

end Expr

/-! ## Writing from a stack -/

/-- Something that remains to be written. -/
inductive Piece where
  | tree (tree : Expr)
  | text (text : String)
  /-- The caret and exponent that end a power. -/
  | power (power : Int32)

namespace Piece

/-- An upper bound on the pieces that a piece leads to. -/
def load : Piece → Nat
  | .tree e => 2 * e.workload
  | _ => 1

def stackLoad : List Piece → Nat
  | [] => 0
  | piece :: stack => piece.load + stackLoad stack

/-- Writes the pieces of a stack after a given text, the first piece first. -/
def writeAll (out : String) (stack : List Piece) : String :=
  match stack with
  | [] => out
  | .text t :: stack => writeAll (out ++ t) stack
  | .power n :: stack => writeAll (out ++ " ^ " ++ decimal32 n) stack
  | .tree (.constant v) :: stack => writeAll (out ++ " " ++ decimal32 v ++ " ") stack
  | .tree (.negate e) :: stack => writeAll (out ++ " -") (.tree e :: .text " " :: stack)
  | .tree (.exponent b n) :: stack => writeAll (out ++ " ") (.tree b :: .power n :: stack)
  | .tree (.addition l r) :: stack =>
    writeAll (out ++ " (") (.tree l :: .text " + " :: .tree r :: .text ") " :: stack)
  | .tree (.multiplication l r) :: stack =>
    writeAll (out ++ " (") (.tree l :: .text " * " :: .tree r :: .text ") " :: stack)
termination_by stackLoad stack
decreasing_by all_goals simp [stackLoad, load, Expr.workload]; try omega

end Piece

namespace Expr

/-- The text of `render`, written from a stack of pieces. -/
def renderStack (e : Expr) : String := Piece.writeAll "" [.tree e]

end Expr
end Reckoner
