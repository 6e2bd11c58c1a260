import Reckoner.Evaluator
import Reckoner.Proofs.Evaluation.Arithmetic
import Reckoner.Proofs.Fold.Success

/-!
# The four evaluators agree

An evaluator is one of two arithmetics together with one of two ways of walking a tree.  The way
of walking never changes the outcome.  Where checked arithmetic finds a value, wrapping arithmetic
finds the same one: this holds at one node, and a fold carries it from the operands to the whole
tree (`Expr.evaluate_of_checkedEvaluate`).  A failure leaves one line in the log, which is the
only place where the way of walking shows.
-/

namespace Reckoner

namespace Expr

/-! ## Whole trees -/

theorem evaluateStack_eq_evaluate (e : Expr) : e.evaluateStack = e.evaluate :=
  valueStack_eq_value wrappingArithmetic e

theorem checkedEvaluateStack_eq_checkedEvaluate (e : Expr) :
    e.checkedEvaluateStack = e.checkedEvaluate := by
  unfold checkedEvaluateStack checkedEvaluate
  rw [foldStack_eq_fold]

theorem checkedEvaluate_eq_ok_iff {e : Expr} {v : Int32} :
    e.checkedEvaluate = .ok v ↔ e.fold checkedArithmetic () = (.ok v, ()) := by
  constructor
  · intro h
    exact Prod.ext h rfl
  · intro h
    exact congrArg Prod.fst h

/-- Where checked evaluation returns a value, wrapping evaluation returns the same. -/
theorem evaluate_of_checkedEvaluate {e : Expr} {v : Int32} (h : e.checkedEvaluate = .ok v) :
    e.evaluate = v :=
  value_of_fold_eq_ok wrappingArithmetic_of_checkedArithmetic (checkedEvaluate_eq_ok_iff.mp h)

/-- The same holds for powers computed in floating point, whatever they are. -/
theorem value_of_checkedArithmeticBy (power : Int32 → Int32 → FloatValue) {e : Expr} {v : Int32}
    (h : (e.fold (checkedArithmeticBy power) ()).1 = .ok v) :
    e.value (wrappingArithmeticBy power) = v := by
  have hfold : e.fold (checkedArithmeticBy power) () = (.ok v, ()) := Prod.ext h rfl
  exact value_of_fold_eq_ok (wrappingArithmeticBy_of_checkedArithmeticBy power) hfold

/-- Where checked evaluation returns a value, it does so at every subtree. -/
theorem checkedEvaluate_of_mem {e d : Expr} (hd : d ∈ e.postorder) {v : Int32}
    (h : e.checkedEvaluate = .ok v) : ∃ w, d.checkedEvaluate = .ok w := by
  obtain ⟨s, w, t, hfold⟩ := fold_ok_of_mem hd (checkedEvaluate_eq_ok_iff.mp h)
  exact ⟨w, checkedEvaluate_eq_ok_iff.mpr hfold⟩

end Expr

namespace Evaluator

/-! ## Outcomes -/

theorem outcome_evaluate (evaluator : Evaluator) (e : Expr) :
    (evaluator.evaluate e).outcome = evaluator.outcome e := by
  unfold evaluate
  cases evaluator.outcome e <;> rfl

/-- Under wrapping arithmetic either way of walking returns the wrapped value. -/
theorem outcome_wrapping (strategy : Strategy) (e : Expr) :
    outcome ⟨strategy, .wrapping⟩ e = .ok e.evaluate := by
  cases strategy with
  | recursive => rfl
  | iterative => exact congrArg Except.ok e.evaluateStack_eq_evaluate

/-- Under checked arithmetic either way of walking returns the checked value. -/
theorem outcome_checked (strategy : Strategy) (e : Expr) :
    outcome ⟨strategy, .checked⟩ e = e.checkedEvaluate := by
  cases strategy with
  | recursive => rfl
  | iterative => exact e.checkedEvaluateStack_eq_checkedEvaluate

theorem outcome_recursive_eq_iterative (overflow : Overflow) (e : Expr) :
    outcome ⟨.recursive, overflow⟩ e = outcome ⟨.iterative, overflow⟩ e := by
  cases overflow with
  | wrapping => rw [outcome_wrapping, outcome_wrapping]
  | checked => rw [outcome_checked, outcome_checked]

/-! ## Log lines -/

/-- The log of an evaluation follows from its outcome. -/
theorem log_evaluate (evaluator : Evaluator) (e : Expr) :
    (evaluator.evaluate e).log =
      match evaluator.outcome e with
      | .ok _ => []
      | .error x => [evaluator.failureLine e x] := by
  unfold evaluate
  cases evaluator.outcome e <;> rfl

/-- The line of an overflow names the strategy, the kind of the root and the kind that overflows. -/
theorem failureLine_overflow (evaluator : Evaluator) (e : Expr) (k : Kind) :
    evaluator.failureLine e (.overflow k) =
      ⟨.debug, evaluator.strategy.name ++ " evaluation of " ++ e.kind.name ++
        " expression failed: " ++ ("Overflow evaluating " ++ k.name)⟩ := rfl

/-- The lines of the two strategies differ in their first word. -/
theorem failureLine_recursive_ne_iterative (overflow overflow' : Overflow) (e : Expr)
    (error : EvalError) :
    failureLine ⟨.recursive, overflow⟩ e error ≠ failureLine ⟨.iterative, overflow'⟩ e error := by
  intro h
  have hmessage := congrArg (fun line => line.message.toList.head?) h
  simp [failureLine, Strategy.name] at hmessage

/-! ## Agreement -/

/-- **The four evaluators agree** on every tree.  The strategy does not change the outcome; under
wrapping arithmetic the outcome is the wrapped value; and where a checked evaluator returns a
value, at the tree and at each of its subtrees every evaluator returns one and the same value.
That wrapping arithmetic follows the checked one holds whatever is taken for powers, and it does
not matter which function computes them in floating point.  The log holds one line, which names
the strategy, the kind of the root and the kind in the error, if evaluation fails, and nothing
otherwise, so that the strategy shows exactly in failures. -/
theorem evaluators_agree (e : Expr) :
    (∀ overflow, (evaluate ⟨.recursive, overflow⟩ e).outcome =
      (evaluate ⟨.iterative, overflow⟩ e).outcome) ∧
    (e.evaluateStack = e.evaluate ∧
      ∀ strategy, (evaluate ⟨strategy, .wrapping⟩ e).outcome = .ok e.evaluate) ∧
    (∀ strategy v, (evaluate ⟨strategy, .checked⟩ e).outcome = .ok v →
      (∀ evaluator : Evaluator, (evaluator.evaluate e).outcome = .ok v) ∧
      ∀ d ∈ e.postorder, ∃ w, ∀ evaluator : Evaluator, (evaluator.evaluate d).outcome = .ok w) ∧
    (∀ power,
      (∀ v, (e.fold (checkedArithmeticBy power) ()).1 = .ok v →
        e.value (wrappingArithmeticBy power) = v) ∧
      (ComputesPowers power → e.value (wrappingArithmeticBy power) = e.evaluate)) ∧
    (∀ evaluator : Evaluator,
      (∀ v, (evaluator.evaluate e).outcome = .ok v → (evaluator.evaluate e).log = []) ∧
      ∀ k, (evaluator.evaluate e).outcome = .error (.overflow k) →
        (evaluator.evaluate e).log =
          [⟨.debug, evaluator.strategy.name ++ " evaluation of " ++ e.kind.name ++
            " expression failed: " ++ ("Overflow evaluating " ++ k.name)⟩]) ∧
    ∀ overflow, evaluate ⟨.recursive, overflow⟩ e = evaluate ⟨.iterative, overflow⟩ e ↔
      ∃ v, (evaluate ⟨.recursive, overflow⟩ e).outcome = .ok v := by
  -- One value serves for a tree, whichever evaluator is asked, as soon as the checked one has it.
  have hall : ∀ (d : Expr) (v : Int32), d.checkedEvaluate = .ok v →
      ∀ evaluator : Evaluator, (evaluator.evaluate d).outcome = .ok v := by
    rintro d v h ⟨strategy, overflow⟩
    rw [outcome_evaluate]
    cases overflow with
    | wrapping => rw [outcome_wrapping, Expr.evaluate_of_checkedEvaluate h]
    | checked => rw [outcome_checked, h]
  refine ⟨?strategies, ⟨e.evaluateStack_eq_evaluate, ?wraps⟩, ?success, ?powers, ?lines, ?observed⟩
  case strategies =>
    intro overflow
    rw [outcome_evaluate, outcome_evaluate, outcome_recursive_eq_iterative]
  case wraps =>
    intro strategy
    rw [outcome_evaluate, outcome_wrapping]
  case success =>
    intro strategy v h
    rw [outcome_evaluate, outcome_checked] at h
    refine ⟨hall e v h, ?_⟩
    intro d hd
    obtain ⟨w, hw⟩ := Expr.checkedEvaluate_of_mem hd h
    exact ⟨w, hall d w hw⟩
  case powers =>
    intro power
    constructor
    · intro v h
      exact Expr.value_of_checkedArithmeticBy power h
    · intro hpower
      rw [wrappingArithmeticBy_eq hpower]
      rfl
  case lines =>
    intro evaluator
    rw [outcome_evaluate, log_evaluate]
    constructor
    · intro v h
      rw [h]
    · intro k h
      simp only [h, failureLine_overflow]
  case observed =>
    intro overflow
    rw [outcome_evaluate]
    constructor
    · intro h
      -- After a failure the two lines would have to be the same.
      cases houtcome : outcome ⟨.recursive, overflow⟩ e with
      | ok v => exact ⟨v, rfl⟩
      | error x =>
        have hlog := congrArg Evaluated.log h
        rw [log_evaluate, log_evaluate, ← outcome_recursive_eq_iterative, houtcome] at hlog
        exact absurd (List.cons.inj hlog).1 (failureLine_recursive_ne_iterative _ _ e x)
    · -- Without a failure neither of the two has logged anything.
      rintro ⟨v, hv⟩
      have hv' := hv
      rw [outcome_recursive_eq_iterative] at hv'
      unfold evaluate
      rw [hv, hv']

end Evaluator
end Reckoner
