import Reckoner.Proofs.Text.Integer
import Reckoner.Rendering

/-!
# The characters of a rendering

`Expr.ink` lists the characters of a rendering by recursion on the tree, so that proofs about the
text can follow the tree.  A sum and a product differ in one character.  Beside digits a rendering
has blanks, parentheses and the signs of its nodes, and no other characters (`Expr.notMem_ink`).
-/

namespace Reckoner
namespace Expr

/-- Two operands between parentheses, with their operator. -/
def binaryInk (operator : Char) (left right : List Char) : List Char :=
  ' ' :: '(' :: left ++ (' ' :: operator :: ' ' :: right ++ [')', ' '])

/-- The characters of a rendering. -/
def ink : Expr → List Char
  | .constant v => ' ' :: ((decimal32 v).toList ++ [' '])
  | .negate e => ' ' :: '-' :: (e.ink ++ [' '])
  | .exponent b n => ' ' :: (b.ink ++ ' ' :: '^' :: ' ' :: (decimal32 n).toList)
  | .addition l r => binaryInk '+' l.ink r.ink
  | .multiplication l r => binaryInk '*' l.ink r.ink

theorem toList_render (e : Expr) : e.render.toList = e.ink := by
  -- `renderTo_eq` moves the text in front of an operand out.
  induction e with
  | constant v => simp [render, renderTo, ink]
  | negate e ih =>
    rw [render, renderTo, renderTo_eq]
    simp [ink, ih]
  | exponent b n ih =>
    rw [render, renderTo, renderTo_eq]
    simp [ink, ih]
  | addition l r ihl ihr =>
    rw [render, renderTo, renderTo_eq, renderTo_eq]
    simp [ink, binaryInk, ihl, ihr]
  | multiplication l r ihl ihr =>
    rw [render, renderTo, renderTo_eq, renderTo_eq]
    simp [ink, binaryInk, ihl, ihr]

theorem render_eq_iff_ink_eq {e₁ e₂ : Expr} : e₁.render = e₂.render ↔ e₁.ink = e₂.ink := by
  rw [← toList_render, ← toList_render, String.toList_inj]

/-- The characters of a rendering that are no digits. -/
def signs : List Char := [' ', '(', ')', '+', '*', '^', '-']

theorem notMem_ink {c : Char} (hdigit : isDigit c = false) (hsign : c ∉ signs) (e : Expr) :
    c ∉ e.ink := by
  simp only [signs, List.mem_cons, List.not_mem_nil, or_false, not_or] at hsign
  have hdecimal := notMem_decimal32 hdigit hsign.2.2.2.2.2.2
  induction e with
  | constant v => simp [ink, hsign, hdecimal]
  | negate e ih => simp [ink, hsign, ih]
  | exponent b n ih => simp [ink, hsign, hdecimal, ih]
  | addition l r ihl ihr => simp [ink, binaryInk, hsign, ihl, ihr]
  | multiplication l r ihl ihr => simp [ink, binaryInk, hsign, ihl, ihr]

end Expr
end Reckoner
