import Reckoner.Expr

/-!
# Subtrees

The subtrees of a tree in post-order: those of the operands, left before right, and then the tree
itself.  A subtree that occurs several times is listed as often.

Where an argument is the same for every kind of node, it can go by the list of operands: the
subtrees are the tree and those of its operands (`Expr.mem_postorder_iff`), and what a tree takes
over from its operands is true of all trees (`Expr.induction_operands`).
-/

namespace Reckoner
namespace Expr

/-- All subtrees, operands before their node and left before right. -/
def postorder : Expr → List Expr
  | .constant v => [.constant v]
  | .negate e => e.postorder ++ [.negate e]
  | .exponent b n => b.postorder ++ [.exponent b n]
  | .addition l r => l.postorder ++ r.postorder ++ [.addition l r]
  | .multiplication l r => l.postorder ++ r.postorder ++ [.multiplication l r]

/-- A tree is a subtree of itself. -/
theorem mem_postorder_self (e : Expr) : e ∈ e.postorder := by
  cases e <;> simp [postorder]

/-! ## Operands -/

/-- The operands of the root. -/
def operands : Expr → List Expr
  | .constant _ => []
  | .negate e => [e]
  | .exponent b _ => [b]
  | .addition l r => [l, r]
  | .multiplication l r => [l, r]

theorem mem_postorder_iff {e d : Expr} :
    d ∈ e.postorder ↔ (∃ o ∈ e.operands, d ∈ o.postorder) ∨ d = e := by
  cases e <;> simp [postorder, operands, or_assoc]

theorem mem_postorder_of_operand {e o d : Expr} (ho : o ∈ e.operands) (hd : d ∈ o.postorder) :
    d ∈ e.postorder :=
  mem_postorder_iff.mpr (Or.inl ⟨o, ho, hd⟩)

/-- What is true of all subtrees is true of the tree and of those of its operands. -/
theorem forall_mem_postorder_iff {e : Expr} {p : Expr → Prop} :
    (∀ d ∈ e.postorder, p d) ↔ p e ∧ ∀ o ∈ e.operands, ∀ d ∈ o.postorder, p d := by
  constructor
  · intro h
    exact ⟨h e e.mem_postorder_self, fun o ho d hd => h d (mem_postorder_of_operand ho hd)⟩
  · rintro ⟨hroot, hbelow⟩ d hd
    rcases mem_postorder_iff.mp hd with ⟨o, ho, hd⟩ | rfl
    · exact hbelow o ho d hd
    · exact hroot

/-- Induction for all kinds of node at once. -/
@[elab_as_elim]
theorem induction_operands {motive : Expr → Prop}
    (step : ∀ e : Expr, (∀ o ∈ e.operands, motive o) → motive e) (e : Expr) : motive e := by
  -- What the induction has for each operand is what it has for all in the list.
  induction e with
  | constant v => exact step _ (by simp [operands])
  | negate e ih => exact step _ (by simpa [operands] using ih)
  | exponent b n ih => exact step _ (by simpa [operands] using ih)
  | addition l r ihl ihr => exact step _ (by simp [operands, ihl, ihr])
  | multiplication l r ihl ihr => exact step _ (by simp [operands, ihl, ihr])

end Expr
end Reckoner
