import Reckoner.Expr.Size
import Reckoner.Proofs.Evaluation.Agreement
import Reckoner.Proofs.Evaluation.Exact
import Reckoner.Proofs.Expr.Mirror

/-!
# The order of operands

Sums and products do not depend on the order of their operands, in either arithmetic, and neither
do sizes and depths (`Algebra.folder` and `checkedArithmeticBy` commute).  So all evaluators find
the same values in mirrored trees.

Where checked evaluation fails, the order of operands decides which overflow is met first, and
mirrored trees may report different kinds.  Each report is an overflow of both trees all the same:
it names a subtree that overflows by itself, everything below it being in range (`Expr.Overflows`),
and this subtree has a mirrored counterpart that does so too.
-/

namespace Reckoner

/-! ## Arithmetics that commute -/

/-- Both operands count, whichever comes first. -/
theorem commutes_sizeAlgebra : Algebra.Commutes sizeAlgebra := by
  intro node
  cases node with
  | addition m n => simp [Node.swap, sizeAlgebra, Nat.add_comm]
  | multiplication m n => simp [Node.swap, sizeAlgebra, Nat.add_comm]
  | constant _ | negate _ | exponent _ _ => rfl

/-- The deeper operand counts, whichever comes first. -/
theorem commutes_depthAlgebra : Algebra.Commutes depthAlgebra := by
  intro node
  cases node with
  | addition m n => simp [Node.swap, depthAlgebra, Nat.max_comm]
  | multiplication m n => simp [Node.swap, depthAlgebra, Nat.max_comm]
  | constant _ | negate _ | exponent _ _ => rfl

/-- Wrapped sums and products are commutative. -/
theorem commutes_wrappingArithmetic : Algebra.Commutes wrappingArithmetic := by
  intro node
  cases node with
  | addition a b => exact Int32.add_comm b a
  | multiplication a b => exact Int32.mul_comm b a
  | constant _ | negate _ | exponent _ _ => rfl

/-- So are exact ones, and an overflow has the kind of the node. -/
theorem commutes_checkedArithmetic : Folder.Commutes checkedArithmetic := by
  intro node
  funext s
  cases node with
  | addition a b => simp [Node.swap, checkedArithmetic, exactValue, Int.add_comm, Node.kind]
  | multiplication a b => simp [Node.swap, checkedArithmetic, exactValue, Int.mul_comm, Node.kind]
  | constant _ | negate _ | exponent _ _ => rfl

/-- Powers have one operand, so that it does not matter how they are computed. -/
theorem commutes_wrappingArithmeticBy (power : Int32 → Int32 → FloatValue) :
    Algebra.Commutes (wrappingArithmeticBy power) := by
  intro node
  cases node with
  | exponent a n => rfl
  | addition a b => exact commutes_wrappingArithmetic (.addition a b)
  | multiplication a b => exact commutes_wrappingArithmetic (.multiplication a b)
  | constant _ | negate _ => rfl

/-- Likewise in checked arithmetic. -/
theorem commutes_checkedArithmeticBy (power : Int32 → Int32 → FloatValue) :
    Folder.Commutes (checkedArithmeticBy power) := by
  intro node
  cases node with
  | exponent a n => rfl
  | addition a b => exact commutes_checkedArithmetic (.addition a b)
  | multiplication a b => exact commutes_checkedArithmetic (.multiplication a b)
  | constant _ | negate _ => rfl

namespace Expr

/-! ## Trees that overflow by themselves -/

/-- Whether the exact value of a tree is out of range while all below it is in range. -/
def Overflows (d : Expr) : Prop := ¬ d.Fits ∧ ∀ c ∈ d.postorder, c ≠ d → c.Fits

/-- Checked evaluation that succeeds has met no misfit. -/
theorem fits_of_checkedEvaluate {e c : Expr} {v : Int32} (h : e.checkedEvaluate = .ok v)
    (hc : c ∈ e.postorder) : c.Fits := by
  have hsettled := settled_checkedEvaluate e
  rw [h] at hsettled
  exact firstMisfit?_eq_none_iff.mp hsettled.1 c hc

/-- Where checked arithmetic has reached the root of a tree, all below it is in range. -/
theorem Reaches.fits_below {d : Expr} {node : Node Int32} (h : d.Reaches checkedArithmetic node)
    {c : Expr} (hc : c ∈ d.postorder) (hne : c ≠ d) : c.Fits := by
  -- What is below the root is in one of its operands, and these have answers.
  obtain ⟨o, ho, hc⟩ := (mem_postorder_iff.mp hc).resolve_right hne
  obtain ⟨a, ha⟩ := h.exists_answer o ho
  exact fits_of_checkedEvaluate ha hc

/-- A tree whose root checked arithmetic refuses overflows by itself, and the error names its
kind. -/
theorem Refused.overflows {d : Expr} {k : Kind}
    (h : d.Refused checkedArithmetic (.overflow k)) : d.kind = k ∧ d.Overflows := by
  obtain ⟨node, hnode, hx⟩ := h
  have hsettled := settled_checkedEvaluate d
  rw [show d.checkedEvaluate = .error (.overflow k) from hnode.answer_eq.trans hx] at hsettled
  obtain ⟨m, hm, hk⟩ := hsettled
  have hmisfit : ¬ m.Fits := by simpa using List.find?_some hm
  -- All below the root fits, so that the root is the first misfit.
  have hroot : m = d := by
    by_contra hne
    exact hmisfit (hnode.fits_below (List.mem_of_find?_eq_some hm) hne)
  subst hroot
  exact ⟨(EvalError.overflow.inj hk).symm, hmisfit, fun c => hnode.fits_below⟩

/-! ## Mirrored trees -/

/-- **The order of operands matters only for which overflow is seen.**  Mirrored trees have the
same wrapped value, size and depth, and checked evaluation returns the same values on them; this is
so for every evaluator, and whatever function computes powers in floating point.  An overflow that
is reported for either tree is one of both: it names the kind of a subtree that is out of range
while all below it is in range, and of a mirrored counterpart of this subtree in the other tree. -/
theorem evaluate_mirrored {e e' : Expr} (h : e.Mirrored e') :
    (e'.evaluate = e.evaluate ∧ e'.size = e.size ∧ e'.depth = e.depth) ∧
    (∀ v, e'.checkedEvaluate = .ok v ↔ e.checkedEvaluate = .ok v) ∧
    (∀ k, e.checkedEvaluate = .error (.overflow k) ∨ e'.checkedEvaluate = .error (.overflow k) →
      ∃ d ∈ e.postorder, ∃ d' ∈ e'.postorder, d.Mirrored d' ∧
        (d.kind = k ∧ d.Overflows) ∧ d'.kind = k ∧ d'.Overflows) ∧
    (∀ (evaluator : Evaluator) (v : Int32),
      (evaluator.evaluate e').outcome = .ok v ↔ (evaluator.evaluate e).outcome = .ok v) ∧
    ∀ power,
      e'.value (wrappingArithmeticBy power) = e.value (wrappingArithmeticBy power) ∧
      (∀ v, e'.answer (checkedArithmeticBy power) = .ok v ↔
        e.answer (checkedArithmeticBy power) = .ok v) ∧
      ∀ x, e.answer (checkedArithmeticBy power) = .error x ∨
          e'.answer (checkedArithmeticBy power) = .error x →
        ∃ d ∈ e.postorder, ∃ d' ∈ e'.postorder, d.Mirrored d' ∧
          d.Refused (checkedArithmeticBy power) x ∧ d'.Refused (checkedArithmeticBy power) x := by
  refine ⟨⟨?value, ?size, ?depth⟩, ?checked, ?overflow, ?evaluators, ?computed⟩
  case value => exact h.value_eq commutes_wrappingArithmetic
  case size =>
    rw [size, size, valueStack_eq_value, valueStack_eq_value]
    exact h.value_eq commutes_sizeAlgebra
  case depth =>
    rw [depth, depth, valueStack_eq_value, valueStack_eq_value]
    exact h.value_eq commutes_depthAlgebra
  case checked =>
    intro v
    exact h.answer_eq_ok_iff commutes_checkedArithmetic
  case overflow =>
    intro k hk
    -- The overflow was refused somewhere, and at the counterpart it is refused as well.
    obtain ⟨d, hd, d', hd', hmirrored, hrefused, hrefused'⟩ :=
      h.exists_refused commutes_checkedArithmetic hk
    exact ⟨d, hd, d', hd', hmirrored, hrefused.overflows, hrefused'.overflows⟩
  case evaluators =>
    rintro ⟨strategy, overflow⟩ v
    rw [Evaluator.outcome_evaluate, Evaluator.outcome_evaluate]
    cases overflow with
    | wrapping =>
      rw [Evaluator.outcome_wrapping, Evaluator.outcome_wrapping,
        show e'.evaluate = e.evaluate from h.value_eq commutes_wrappingArithmetic]
    | checked =>
      rw [Evaluator.outcome_checked, Evaluator.outcome_checked]
      exact h.answer_eq_ok_iff commutes_checkedArithmetic
  case computed =>
    intro power
    have hchecked := commutes_checkedArithmeticBy power
    exact ⟨h.value_eq (commutes_wrappingArithmeticBy power), fun v => h.answer_eq_ok_iff hchecked,
      fun x => h.exists_refused hchecked⟩

/-- A sum of a sum and a product that are both out of range. -/
def overflowing : Expr :=
  .addition (.negate (.addition (.constant 2147483647) (.constant 1)))
    (.multiplication (.constant 2147483647) (.constant 2))

/-- The same with the operands of all three exchanged. -/
def overflowingMirrored : Expr :=
  .addition (.multiplication (.constant 2) (.constant 2147483647))
    (.negate (.addition (.constant 1) (.constant 2147483647)))

/-- The one tree reports its sum and the other its product, and both overflow in both. -/
theorem evaluate_overflowing_mirrored :
    overflowing.Mirrored overflowingMirrored ∧
    overflowing.checkedEvaluate = .error (.overflow .addition) ∧
    overflowingMirrored.checkedEvaluate = .error (.overflow .multiplication) ∧
    overflowingMirrored.evaluate = overflowing.evaluate ∧
    ∀ k ∈ [Kind.addition, .multiplication],
      ∃ d ∈ overflowing.postorder, ∃ d' ∈ overflowingMirrored.postorder, d.Mirrored d' ∧
        (d.kind = k ∧ d.Overflows) ∧ d'.kind = k ∧ d'.Overflows := by
  have h : overflowing.Mirrored overflowingMirrored :=
    .swappedAddition (.negate (.swappedAddition (.constant _) (.constant _)))
      (.swappedMultiplication (.constant _) (.constant _))
  have hleft : overflowing.checkedEvaluate = .error (.overflow .addition) := by decide
  have hright : overflowingMirrored.checkedEvaluate = .error (.overflow .multiplication) := by
    decide
  obtain ⟨⟨hvalue, -, -⟩, -, hoverflow, -⟩ := evaluate_mirrored h
  refine ⟨h, hleft, hright, hvalue, ?_⟩
  intro k hk
  apply hoverflow
  rcases List.mem_pair.mp hk with rfl | rfl
  · exact Or.inl hleft
  · exact Or.inr hright

end Expr
end Reckoner
