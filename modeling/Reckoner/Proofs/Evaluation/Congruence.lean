import Reckoner.Proofs.Evaluation.Agreement
import Reckoner.Proofs.Expr.Context

/-!
# Trees with one outcome can be exchanged

An evaluator sees a subtree only through its outcome.  If two trees have the same outcome, be it a
value or an overflow, then so have all trees that contain the one or the other at the same place
(`Evaluator.evaluate_fill_congr`).  The tree around them may overflow by itself, before the place
or behind it, and each evaluator wraps, saturates or fails there in its own way.

That the two ways of walking a tree agree brings the stack back to the recursion, and for the
recursion a context is a fold with a gap (`Context.fold_fill`).  Nothing is asked of powers, so
that the same holds for every function that computes them in floating point (`outcomeBy`).
-/

namespace Reckoner
namespace Evaluator

/-! ## Outcomes with computed powers -/

/-- The outcome under an evaluator whose powers are computed in doubles by some function. -/
def outcomeBy (power : Int32 → Int32 → FloatValue) (evaluator : Evaluator) (e : Expr) :
    Except EvalError Int32 :=
  match evaluator.overflow, evaluator.strategy with
  | .wrapping, .recursive => .ok (e.value (wrappingArithmeticBy power))
  | .wrapping, .iterative => .ok (e.valueStack (wrappingArithmeticBy power))
  | .checked, .recursive => (e.fold (checkedArithmeticBy power) ()).1
  | .checked, .iterative => (e.foldStack (checkedArithmeticBy power) ()).1

/-- A function that computes powers gives the evaluator itself. -/
theorem outcomeBy_eq {power : Int32 → Int32 → FloatValue} (hpower : ComputesPowers power)
    (evaluator : Evaluator) (e : Expr) : evaluator.outcomeBy power e = evaluator.outcome e := by
  unfold outcomeBy outcome
  rw [wrappingArithmeticBy_eq hpower, checkedArithmeticBy_eq hpower]
  rfl

/-! ## Exchanging trees -/

/-- A folder without a state does the same on two trees if it gives them the same answer. -/
private theorem fold_eq_of_fst_eq {ε α : Type} {f : Folder Unit ε α} {e e' : Expr}
    (h : (e.fold f ()).1 = (e'.fold f ()).1) : e.fold f = e'.fold f := by
  funext s
  exact Prod.ext h rfl

/-- Trees with one outcome are exchanged in a context without a change of its outcome. -/
theorem outcomeBy_fill_congr {power : Int32 → Int32 → FloatValue} {evaluator : Evaluator}
    {e e' : Expr} (h : evaluator.outcomeBy power e = evaluator.outcomeBy power e') (c : Context) :
    evaluator.outcomeBy power (c.fill e) = evaluator.outcomeBy power (c.fill e') := by
  obtain ⟨strategy, overflow⟩ := evaluator
  -- Only a wrapping evaluator always has a value; what a checked one may do is all in its fold.
  cases overflow with
  | wrapping =>
    cases strategy with
    | recursive =>
      apply congrArg Except.ok
      exact Context.value_fill_congr (Except.ok.inj h) c
    | iterative =>
      simp only [outcomeBy, Expr.valueStack_eq_value] at h ⊢
      apply congrArg Except.ok
      exact Context.value_fill_congr (Except.ok.inj h) c
  | checked =>
    cases strategy with
    | recursive =>
      simp only [outcomeBy] at h ⊢
      rw [Context.fold_fill_congr (fold_eq_of_fst_eq h)]
    | iterative =>
      simp only [outcomeBy, Expr.foldStack_eq_fold] at h ⊢
      rw [Context.fold_fill_congr (fold_eq_of_fst_eq h)]

theorem outcome_fill_congr {evaluator : Evaluator} {e e' : Expr}
    (h : evaluator.outcome e = evaluator.outcome e') (c : Context) :
    evaluator.outcome (c.fill e) = evaluator.outcome (c.fill e') := by
  have hpower := computesPowers_exactFloatValue
  rw [← outcomeBy_eq hpower, ← outcomeBy_eq hpower] at h ⊢
  exact outcomeBy_fill_congr h c

/-- Every evaluator takes a constant for its value. -/
theorem outcome_constant (evaluator : Evaluator) (v : Int32) :
    evaluator.outcome (.constant v) = .ok v := by
  obtain ⟨strategy, overflow⟩ := evaluator
  cases overflow with
  | wrapping => rw [outcome_wrapping]; rfl
  | checked => rw [outcome_checked]; rfl

/-- What an evaluation returns and logs follows from the outcome and the kind of the root. -/
theorem evaluate_eq_of_outcome_eq {evaluator : Evaluator} {e e' : Expr}
    (houtcome : evaluator.outcome e = evaluator.outcome e') (hkind : e.kind = e'.kind) :
    evaluator.evaluate e = evaluator.evaluate e' := by
  unfold evaluate failureLine
  rw [houtcome, hkind]

/-! ## Congruence -/

/-- **Evaluation is a congruence** for every evaluator: two trees with the same outcome, value or
overflow, give the same outcome in every context, and below its root also the same log.  So the
constant of its value can stand for any subtree, the subtrees being what contexts are filled with.
All this does not depend on which function computes powers in floating point, nor on how well. -/
theorem evaluate_fill_congr (evaluator : Evaluator) :
    (∀ e e' : Expr, (evaluator.evaluate e).outcome = (evaluator.evaluate e').outcome →
      ∀ c : Context,
        (evaluator.evaluate (c.fill e)).outcome = (evaluator.evaluate (c.fill e')).outcome ∧
        (c ≠ .hole → evaluator.evaluate (c.fill e) = evaluator.evaluate (c.fill e'))) ∧
    (∀ (d : Expr) (v : Int32), (evaluator.evaluate d).outcome = .ok v →
      ∀ c : Context, (evaluator.evaluate (c.fill (.constant v))).outcome =
        (evaluator.evaluate (c.fill d)).outcome) ∧
    (∀ d e : Expr, d ∈ e.postorder ↔ ∃ c : Context, c.fill d = e) ∧
    ∀ power (e e' : Expr), evaluator.outcomeBy power e = evaluator.outcomeBy power e' →
      ∀ c : Context,
        evaluator.outcomeBy power (c.fill e) = evaluator.outcomeBy power (c.fill e') := by
  refine ⟨?exchange, ?constant, ?subtrees, ?computed⟩
  case exchange =>
    intro e e' h c
    rw [outcome_evaluate, outcome_evaluate] at h
    have hfilled := outcome_fill_congr h c
    rw [outcome_evaluate, outcome_evaluate]
    refine ⟨hfilled, ?_⟩
    intro hc
    exact evaluate_eq_of_outcome_eq hfilled (Context.kind_fill hc e e')
  case constant =>
    intro d v h c
    rw [outcome_evaluate] at h
    rw [outcome_evaluate, outcome_evaluate]
    apply outcome_fill_congr
    rw [outcome_constant, h]
  case subtrees =>
    intro d e
    exact Context.exists_fill_iff.symm
  case computed =>
    intro power e e' h c
    exact outcomeBy_fill_congr h c

-- An overflow in front of the place is still the one that is reported.
example : (evaluate ⟨.recursive, .checked⟩ ((Context.additionRight (-(.constant (-2147483648)))
      (.multiplicationLeft .hole (.constant 2))).fill (.constant 1073741824))).outcome =
    .error (.overflow .negate) := by decide

end Evaluator
end Reckoner
