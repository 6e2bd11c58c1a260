import Mathlib.Data.Int.ModEq
import Reckoner.Proofs.Evaluation.Agreement

/-!
# Wrapping evaluation is reduction modulo 2 ^ 32

Wrapping arithmetic reduces at every node.  It comes to the same to compute over all integers and
reduce once, at the root (`Expr.value_eq_ofInt`): sums, products and negations may be reduced early
or late.  A power may not, since it depends on its base as an integer and not on the remainder, so
that every power is taken for its value; what stands inside a power does not matter further.

So laws of exact arithmetic carry over to trees (`Expr.value_eq_of_unreduced_eq`).  `Rearranged`
applies commutativity, associativity, distributivity and the laws of negation anywhere in a tree,
also inside powers, and leaves the value as it is.

All this holds whatever is taken for powers.  `Algebra.Wraps` says of an arithmetic that it is the
wrapping one apart from them.
-/

namespace Reckoner

/-! ## Integers modulo 2 ^ 32 -/

/-- Among the integers congruent to a given one, one is a 32-bit integer. -/
theorem toInt_modEq_iff {v : Int32} {i : Int} :
    v.toInt ≡ i [ZMOD 2 ^ 32] ↔ v = Int32.ofInt i := by
  rw [← Int32.toInt_inj, Int32.toInt_ofInt]
  constructor
  · intro h
    -- Balanced remainders follow from remainders.
    calc v.toInt = v.toInt.bmod (2 ^ 32) := (Int32.toInt_bmod v).symm
      _ = (v.toInt % 2 ^ 32).bmod (2 ^ 32) := (Int.emod_bmod ..).symm
      _ = (i % 2 ^ 32).bmod (2 ^ 32) := by rw [h]
      _ = i.bmod (2 ^ 32) := Int.emod_bmod ..
  · intro h
    rw [h]
    exact Int.bmod_emod

/-! ## Arithmetics that wrap -/

/-- Whether an arithmetic wraps at all nodes that are no powers. -/
def Algebra.Wraps (a : Algebra Int32) : Prop :=
  ∀ node, node.kind ≠ .exponent → a node = wrappingArithmetic node

theorem wraps_wrappingArithmetic : Algebra.Wraps wrappingArithmetic :=
  fun _ _ => rfl

theorem wraps_wrappingArithmeticBy (power : Int32 → Int32 → FloatValue) :
    Algebra.Wraps (wrappingArithmeticBy power) := by
  intro node hnode
  cases node with
  | exponent a n => exact absurd rfl hnode
  | constant _ | negate _ | addition _ _ | multiplication _ _ => rfl

namespace Expr

/-! ## Reducing once -/

/-- The value over all integers, for which nothing is reduced; a power is taken for its value in an
arithmetic, as is all that stands inside it. -/
def unreduced (a : Algebra Int32) : Expr → Int
  | .constant v => v.toInt
  | .negate e => -e.unreduced a
  | .exponent b n => ((exponent b n).value a).toInt
  | .addition l r => l.unreduced a + r.unreduced a
  | .multiplication l r => l.unreduced a * r.unreduced a

/-- Reducing at every node comes to the same as reducing once. -/
theorem value_eq_ofInt {a : Algebra Int32} (ha : a.Wraps) (e : Expr) :
    e.value a = Int32.ofInt (e.unreduced a) := by
  induction e with
  | constant v =>
    rw [value_constant, ha _ (by simp [Node.kind]), unreduced, Int32.ofInt_toInt]
    rfl
  | negate e ih =>
    rw [value_negate, ha _ (by simp [Node.kind]), unreduced, Int32.ofInt_neg, ← ih]
    rfl
  -- A power is taken for its value, which is a 32-bit integer already.
  | exponent b n => rw [unreduced, Int32.ofInt_toInt]
  | addition l r ihl ihr =>
    rw [value_addition, ha _ (by simp [Node.kind]), unreduced, Int32.ofInt_add, ← ihl, ← ihr]
    rfl
  | multiplication l r ihl ihr =>
    rw [value_multiplication, ha _ (by simp [Node.kind]), unreduced, Int32.ofInt_mul, ← ihl, ← ihr]
    rfl

/-- The value is the one 32-bit integer that is congruent to the unreduced value. -/
theorem toInt_modEq_unreduced_iff {a : Algebra Int32} (ha : a.Wraps) (e : Expr) (v : Int32) :
    v.toInt ≡ e.unreduced a [ZMOD 2 ^ 32] ↔ v = e.value a := by
  rw [toInt_modEq_iff, value_eq_ofInt ha]

theorem value_eq_of_unreduced_eq {a : Algebra Int32} (ha : a.Wraps) {e e' : Expr}
    (h : e'.unreduced a = e.unreduced a) : e'.value a = e.value a := by
  rw [value_eq_ofInt ha, value_eq_ofInt ha, h]

/-! ## Rearranging trees -/

/-- Whether one tree comes from another by laws of sums, products and negations, applied to any of
its subtrees any number of times. -/
inductive Rearranged : Expr → Expr → Prop where
  | refl (e : Expr) : Rearranged e e
  | symm {e e' : Expr} : Rearranged e e' → Rearranged e' e
  | trans {e e' e'' : Expr} : Rearranged e e' → Rearranged e' e'' → Rearranged e e''
  -- The operands of a node may be rearranged.
  | negate {e e' : Expr} : Rearranged e e' → Rearranged (.negate e) (.negate e')
  | exponent {b b' : Expr} (n : Int32) :
      Rearranged b b' → Rearranged (.exponent b n) (.exponent b' n)
  | addition {l l' r r' : Expr} :
      Rearranged l l' → Rearranged r r' → Rearranged (.addition l r) (.addition l' r')
  | multiplication {l l' r r' : Expr} :
      Rearranged l l' → Rearranged r r' → Rearranged (.multiplication l r) (.multiplication l' r')
  -- The laws.
  | addition_comm (l r : Expr) : Rearranged (.addition l r) (.addition r l)
  | multiplication_comm (l r : Expr) : Rearranged (.multiplication l r) (.multiplication r l)
  | addition_assoc (c d e : Expr) :
      Rearranged (.addition (.addition c d) e) (.addition c (.addition d e))
  | multiplication_assoc (c d e : Expr) :
      Rearranged (.multiplication (.multiplication c d) e)
        (.multiplication c (.multiplication d e))
  | distrib (c d e : Expr) :
      Rearranged (.multiplication c (.addition d e))
        (.addition (.multiplication c d) (.multiplication c e))
  | distrib_negate (l r : Expr) :
      Rearranged (.negate (.addition l r)) (.addition (.negate l) (.negate r))
  | negate_multiplication (l r : Expr) :
      Rearranged (.negate (.multiplication l r)) (.multiplication (.negate l) r)
  | negate_negate (e : Expr) : Rearranged (.negate (.negate e)) e

/-- Rearranging does not change the value. -/
theorem Rearranged.value_eq {a : Algebra Int32} (ha : a.Wraps) {e e' : Expr}
    (h : Rearranged e e') : e'.value a = e.value a := by
  induction h with
  | refl e => rfl
  | symm _ ih => exact ih.symm
  | trans _ _ ih ih' => exact ih'.trans ih
  -- Below a node the value of an operand is all that matters.
  | negate _ ih => rw [value_negate, value_negate, ih]
  | exponent n _ ih => rw [value_exponent, value_exponent, ih]
  | addition _ _ ihl ihr => rw [value_addition, value_addition, ihl, ihr]
  | multiplication _ _ ihl ihr => rw [value_multiplication, value_multiplication, ihl, ihr]
  -- The laws hold over all integers.
  | addition_comm l r =>
    apply value_eq_of_unreduced_eq ha
    exact Int.add_comm _ _
  | multiplication_comm l r =>
    apply value_eq_of_unreduced_eq ha
    exact Int.mul_comm _ _
  | addition_assoc c d e =>
    apply value_eq_of_unreduced_eq ha
    exact (Int.add_assoc _ _ _).symm
  | multiplication_assoc c d e =>
    apply value_eq_of_unreduced_eq ha
    exact (Int.mul_assoc _ _ _).symm
  | distrib c d e =>
    apply value_eq_of_unreduced_eq ha
    exact (Int.mul_add _ _ _).symm
  | distrib_negate l r =>
    apply value_eq_of_unreduced_eq ha
    exact Int.neg_add.symm
  | negate_multiplication l r =>
    apply value_eq_of_unreduced_eq ha
    exact Int.neg_mul _ _
  | negate_negate e =>
    apply value_eq_of_unreduced_eq ha
    exact (Int.neg_neg _).symm

/-! ## Wrapping evaluation -/

/-- **Wrapping evaluation is reduction modulo 2 ^ 32**: of all 32-bit integers just the value of a
tree, found by recursion or on a stack, is congruent to what exact sums, products and negations of
its constants and powers come to.  Rearranging the tree changes neither of the two values.  The same
holds of the arithmetic whose powers are computed in floating point, whatever computes them. -/
theorem evaluate_modulo (e : Expr) :
    (∀ v : Int32, v.toInt ≡ e.unreduced wrappingArithmetic [ZMOD 2 ^ 32] ↔ v = e.evaluate) ∧
    (∀ v : Int32, v.toInt ≡ e.unreduced wrappingArithmetic [ZMOD 2 ^ 32] ↔ v = e.evaluateStack) ∧
    (∀ e', Rearranged e e' →
      e'.evaluate = e.evaluate ∧ e'.evaluateStack = e.evaluateStack) ∧
    ∀ power,
      (∀ v : Int32, v.toInt ≡ e.unreduced (wrappingArithmeticBy power) [ZMOD 2 ^ 32] ↔
        v = e.value (wrappingArithmeticBy power)) ∧
      ∀ e', Rearranged e e' →
        e'.value (wrappingArithmeticBy power) = e.value (wrappingArithmeticBy power) := by
  refine ⟨toInt_modEq_unreduced_iff wraps_wrappingArithmetic e, ?stack, ?rearranged, ?computed⟩
  case stack =>
    rw [evaluateStack_eq_evaluate]
    exact toInt_modEq_unreduced_iff wraps_wrappingArithmetic e
  case rearranged =>
    intro e' h
    rw [evaluateStack_eq_evaluate, evaluateStack_eq_evaluate]
    have hvalue := h.value_eq wraps_wrappingArithmetic
    exact ⟨hvalue, hvalue⟩
  case computed =>
    intro power
    have hwraps := wraps_wrappingArithmeticBy power
    exact ⟨toInt_modEq_unreduced_iff hwraps e, fun e' h => h.value_eq hwraps⟩

end Expr
end Reckoner
