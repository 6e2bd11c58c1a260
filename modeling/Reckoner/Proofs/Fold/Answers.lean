import Reckoner.Proofs.Fold.Success

/-!
# Answers of a folder without a state

What a folder without a state answers for a tree depends on the tree alone, so that the order in
which it is asked matters only for which of several failures is met first.  `Expr.Reaches f e node`
says that the operands of `e` are all answered, and that `node` is the root over these answers;
nothing is said about what the folder makes of it.  A tree is answered exactly if its root is
reached and accepted (`Expr.answer_eq_ok_iff`), and an error always comes from a subtree whose root
is reached and refused (`Expr.exists_refused`).
-/

namespace Reckoner
namespace Expr

variable {ε α : Type} {f : Folder Unit ε α}

/-! ## Answers -/

/-- What a folder without a state answers for a tree. -/
def answer (f : Folder Unit ε α) (e : Expr) : Except ε α := (e.fold f ()).1

/-- Without a state to keep, a sequence of two attempts is the sequence of their answers. -/
private theorem fst_andThen {β : Type} (attempt : Except ε α × Unit)
    (next : α → Unit → Except ε β × Unit) :
    (andThen attempt next).1 = attempt.1.bind fun a => (next a ()).1 := by
  obtain ⟨answer, s⟩ := attempt
  cases answer <;> rfl

theorem answer_constant (v : Int32) : (constant v).answer f = (f (.constant v) ()).1 := rfl

theorem answer_negate (e : Expr) :
    (negate e).answer f = (e.answer f).bind fun a => (f (.negate a) ()).1 :=
  fst_andThen _ _

theorem answer_exponent (b : Expr) (n : Int32) :
    (exponent b n).answer f = (b.answer f).bind fun a => (f (.exponent a n) ()).1 :=
  fst_andThen _ _

theorem answer_addition (l r : Expr) :
    (addition l r).answer f =
      (l.answer f).bind fun a => (r.answer f).bind fun b => (f (.addition a b) ()).1 := by
  refine (fst_andThen _ _).trans ?_
  congr 1
  funext a
  exact fst_andThen _ _

theorem answer_multiplication (l r : Expr) :
    (multiplication l r).answer f =
      (l.answer f).bind fun a => (r.answer f).bind fun b => (f (.multiplication a b) ()).1 := by
  refine (fst_andThen _ _).trans ?_
  congr 1
  funext a
  exact fst_andThen _ _

theorem answer_folder (a : Algebra α) (e : Expr) : e.answer a.folder = .ok (e.value a) := by
  rw [answer, fold_folder]

/-! ## Reached roots -/

/-- Whether the operands of a tree are all answered, so that its root over the answers is a given
node. -/
inductive Reaches (f : Folder Unit ε α) : Expr → Node α → Prop where
  | constant (v : Int32) : Reaches f (.constant v) (.constant v)
  | negate {e : Expr} {a : α} : e.answer f = .ok a → Reaches f (.negate e) (.negate a)
  | exponent {b : Expr} {a : α} (n : Int32) :
      b.answer f = .ok a → Reaches f (.exponent b n) (.exponent a n)
  | addition {l r : Expr} {a b : α} :
      l.answer f = .ok a → r.answer f = .ok b → Reaches f (.addition l r) (.addition a b)
  | multiplication {l r : Expr} {a b : α} :
      l.answer f = .ok a → r.answer f = .ok b →
      Reaches f (.multiplication l r) (.multiplication a b)

/-- Whether the root of a tree is reached and refused with a given error. -/
def Refused (f : Folder Unit ε α) (e : Expr) (x : ε) : Prop :=
  ∃ node, e.Reaches f node ∧ (f node ()).1 = .error x

/-- A tree whose root is reached is answered as its root is. -/
theorem Reaches.answer_eq {e : Expr} {node : Node α} (h : e.Reaches f node) :
    e.answer f = (f node ()).1 := by
  cases h with
  | constant v => exact answer_constant v
  | negate ha => rw [answer_negate, ha, Except.bind]
  | exponent n ha => rw [answer_exponent, ha, Except.bind]
  | addition ha hb => rw [answer_addition, ha, hb, Except.bind, Except.bind]
  | multiplication ha hb => rw [answer_multiplication, ha, hb, Except.bind, Except.bind]

/-- The operands of a reached root are answered. -/
theorem Reaches.exists_answer {e : Expr} {node : Node α} (h : e.Reaches f node) :
    ∀ o ∈ e.operands, ∃ a, o.answer f = .ok a := by
  cases h with
  | constant v => simp [operands]
  | negate ha => simp [operands, ha]
  | exponent n ha => simp [operands, ha]
  | addition ha hb => simp [operands, ha, hb]
  | multiplication ha hb => simp [operands, ha, hb]

/-- Either the root of a tree is reached, or an operand fails and the tree with the same error. -/
theorem reaches_or_fails (f : Folder Unit ε α) (e : Expr) :
    (∃ node, e.Reaches f node) ∨
      ∃ o ∈ e.operands, ∃ x, o.answer f = .error x ∧ e.answer f = .error x := by
  cases e with
  | constant u => exact Or.inl ⟨_, .constant u⟩
  | negate e =>
    cases he : e.answer f with
    | ok a => exact Or.inl ⟨_, .negate he⟩
    | error x => exact Or.inr ⟨e, by simp [operands], x, he, by rw [answer_negate, he, Except.bind]⟩
  | exponent b n =>
    cases hb : b.answer f with
    | ok a => exact Or.inl ⟨_, .exponent n hb⟩
    | error x =>
      exact Or.inr ⟨b, by simp [operands], x, hb, by rw [answer_exponent, hb, Except.bind]⟩
  | addition l r =>
    -- The right operand is asked only if the left one is answered.
    cases hl : l.answer f with
    | error x =>
      exact Or.inr ⟨l, by simp [operands], x, hl, by rw [answer_addition, hl, Except.bind]⟩
    | ok a =>
      cases hr : r.answer f with
      | ok b => exact Or.inl ⟨_, .addition hl hr⟩
      | error x =>
        refine Or.inr ⟨r, by simp [operands], x, hr, ?_⟩
        rw [answer_addition, hl, hr, Except.bind, Except.bind]
  | multiplication l r =>
    cases hl : l.answer f with
    | error x =>
      exact Or.inr ⟨l, by simp [operands], x, hl, by rw [answer_multiplication, hl, Except.bind]⟩
    | ok a =>
      cases hr : r.answer f with
      | ok b => exact Or.inl ⟨_, .multiplication hl hr⟩
      | error x =>
        refine Or.inr ⟨r, by simp [operands], x, hr, ?_⟩
        rw [answer_multiplication, hl, hr, Except.bind, Except.bind]

/-- A tree is answered exactly if its root is reached and accepted. -/
theorem answer_eq_ok_iff {e : Expr} {v : α} :
    e.answer f = .ok v ↔ ∃ node, e.Reaches f node ∧ (f node ()).1 = .ok v := by
  constructor
  · intro h
    rcases e.reaches_or_fails f with ⟨node, hnode⟩ | ⟨_, _, x, _, hx⟩
    · exact ⟨node, hnode, hnode.answer_eq ▸ h⟩
    · -- The failed operand has failed the tree.
      rw [hx] at h
      cases h
  · rintro ⟨node, hnode, h⟩
    rw [hnode.answer_eq, h]

/-- An error comes from a subtree whose operands are answered and whose root is refused. -/
theorem exists_refused {e : Expr} {x : ε} (h : e.answer f = .error x) :
    ∃ d ∈ e.postorder, d.Refused f x := by
  induction e using induction_operands with
  | step e ih =>
    rcases e.reaches_or_fails f with ⟨node, hnode⟩ | ⟨o, ho, y, hy, hfails⟩
    · -- All operands are answered, so that the root itself is refused.
      exact ⟨e, e.mem_postorder_self, node, hnode, hnode.answer_eq ▸ h⟩
    · -- The error of the operand has been handed on.
      rw [hfails] at h
      obtain ⟨d, hd, hrefused⟩ := ih o ho (hy.trans h)
      exact ⟨d, mem_postorder_of_operand ho hd, hrefused⟩

end Expr
end Reckoner
