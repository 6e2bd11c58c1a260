import Reckoner.Proofs.Rendering.Marks
import Reckoner.Proofs.Rendering.Stack

/-!
# The normalised rendering in closed form

`Expr.singleSpaced` writes a tree with single spaces, by recursion on the tree.  Normalising a
rendering gives this text (`Expr.normalize_render_closedForm`), although it works on the flat text
and what becomes of the blanks where two parts meet depends on both of them.  The marks of the
rendering say where a part starts with a space, and a closing parenthesis is the only part that may
start without one: it does so behind a right operand that is a power.
-/

namespace Reckoner
namespace Expr

/-- The parenthesis that closes behind a right operand, close to the digits of an exponent. -/
def closingText (right : Expr) : String :=
  if right.kind = .exponent then ")" else " )"

/-- A tree as infix text with single spaces. -/
def singleSpaced : Expr → String
  | .constant v => decimal32 v
  | .negate e => "- " ++ e.singleSpaced
  | .exponent b n => b.singleSpaced ++ " ^ " ++ decimal32 n
  | .addition l r => "( " ++ l.singleSpaced ++ " + " ++ r.singleSpaced ++ r.closingText
  | .multiplication l r => "( " ++ l.singleSpaced ++ " * " ++ r.singleSpaced ++ r.closingText

theorem toList_closingText (r : Expr) : r.closingText.toList = r.closingMark.spaced := by
  unfold closingText closingMark
  split <;> rfl

/-- The text consists of the marks of the tree. -/
theorem cons_toList_singleSpaced (e : Expr) :
    ' ' :: e.singleSpaced.toList = Mark.spacedAll e.marks := by
  induction e with
  | constant v => simp [singleSpaced, marks, Mark.spacedAll, Mark.spaced]
  | negate e ih =>
    rw [marks, Mark.spacedAll_cons, ← ih]
    simp [singleSpaced, Mark.spaced, Sign.char]
  -- The base comes first, and its marks are those of the tree up to the sign.
  | exponent b n ih =>
    rw [marks, Mark.spacedAll_append, ← ih]
    simp [singleSpaced, Mark.spacedAll, Mark.spaced, Sign.char]
  | addition l r ihl ihr =>
    rw [marks, binaryMarks, Mark.spacedAll_cons, Mark.spacedAll_append, Mark.spacedAll_cons,
      Mark.spacedAll_append, ← ihl, ← ihr]
    simp [singleSpaced, toList_closingText, Mark.spacedAll, Mark.spaced, Sign.char]
  | multiplication l r ihl ihr =>
    rw [marks, binaryMarks, Mark.spacedAll_cons, Mark.spacedAll_append, Mark.spacedAll_cons,
      Mark.spacedAll_append, ← ihl, ← ihr]
    simp [singleSpaced, toList_closingText, Mark.spacedAll, Mark.spaced, Sign.char]

theorem normalize_render_eq_singleSpaced (e : Expr) : normalize e.render = e.singleSpaced := by
  rw [← String.toList_inj, toList_normalize_render, ← cons_toList_singleSpaced, List.tail_cons]

/-- **The normalised rendering in closed form**: a tree written with single spaces, whether it is
rendered by recursion or from a stack. -/
theorem normalize_render_closedForm (e : Expr) :
    normalize e.render = e.singleSpaced ∧ normalize e.renderStack = e.singleSpaced := by
  constructor
  · exact normalize_render_eq_singleSpaced e
  · rw [renderStack_eq, normalize_render_eq_singleSpaced]

-- A parenthesis stands off from a negated power, but not from the power of a negation.
example :
    (addition (constant 1) (negate (exponent (constant 2) 3))).singleSpaced = "( 1 + - 2 ^ 3 )" ∧
    (addition (constant 1) (exponent (negate (constant 2)) 3)).singleSpaced = "( 1 + - 2 ^ 3)" := by
  decide

end Expr
end Reckoner
