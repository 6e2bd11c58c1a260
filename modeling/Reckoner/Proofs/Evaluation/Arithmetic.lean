import Reckoner.Evaluation
import Reckoner.Proofs.Power.Computed

/-!
# Both arithmetics at one node

Where checked arithmetic finds the value of a node, wrapping arithmetic finds the same value
(`wrappingArithmetic_of_checkedArithmetic`).

Both arithmetics are also given with powers computed in doubles, narrowed in the two ways.  That
they go together at a node does then not depend on how powers are computed at all
(`wrappingArithmeticBy_of_checkedArithmeticBy`), and a function that computes powers gives the
arithmetics themselves (`wrappingArithmeticBy_eq`, `checkedArithmeticBy_eq`).
-/

namespace Reckoner

/-! ## One node in both arithmetics -/

private theorem ofInt_eq_of_toInt32? {i : Int} {v : Int32} (h : toInt32? i = some v) :
    Int32.ofInt i = v := by
  rw [toInt32?_eq_some_iff.mp h, Int32.ofInt_toInt]

/-- A power that exists and is in range is not changed by being brought into range. -/
theorem saturatingPower_of_checkedPower {base exponent v : Int32}
    (h : checkedPower base exponent = some v) : saturatingPower base exponent = v := by
  obtain ⟨p, hp, hv⟩ := Option.bind_eq_some_iff.mp h
  unfold saturatingPower
  rw [hp, toInt32?_eq_some_iff.mp hv]
  exact Int32.ofIntClamp_toInt v

/-- Where the exact value of a node is a 32-bit integer, wrapping arithmetic answers it. -/
theorem wrappingArithmetic_of_exactValue {node : Node Int32} {v : Int32}
    (h : exactValue node = some v) : wrappingArithmetic node = v := by
  -- Each operation of 32 bits is the exact one, reduced.
  cases node with
  | constant u => exact Option.some.inj h
  | negate a =>
    rw [← ofInt_eq_of_toInt32? h, Int32.ofInt_neg, Int32.ofInt_toInt]
    rfl
  | exponent a n => exact saturatingPower_of_checkedPower h
  | addition a b =>
    rw [← ofInt_eq_of_toInt32? h, Int32.ofInt_add, Int32.ofInt_toInt, Int32.ofInt_toInt]
    rfl
  | multiplication a b =>
    rw [← ofInt_eq_of_toInt32? h, Int32.ofInt_mul, Int32.ofInt_toInt, Int32.ofInt_toInt]
    rfl

/-- The answers of checked arithmetic are those of wrapping arithmetic. -/
theorem wrappingArithmetic_of_checkedArithmetic (node : Node Int32) (s : Unit) (v : Int32)
    (t : Unit) (h : checkedArithmetic node s = (.ok v, t)) : wrappingArithmetic node = v := by
  apply wrappingArithmetic_of_exactValue
  unfold checkedArithmetic at h
  -- There is a value, or the node is refused.
  split at h
  next w hw =>
    cases h
    exact hw
  next => cases h

/-! ## Powers computed in doubles -/

/-- Wrapping arithmetic with powers that are brought into range. -/
def wrappingArithmeticBy (power : Int32 → Int32 → FloatValue) : Algebra Int32
  | .exponent a n => (power a n).toInt32
  | node => wrappingArithmetic node

/-- Checked arithmetic with powers that are refused where they are out of range. -/
def checkedArithmeticBy (power : Int32 → Int32 → FloatValue) : Folder Unit EvalError Int32
  | .exponent a n, s =>
    match (power a n).checkedInt32 with
    | some v => (.ok v, s)
    | none => (.error (.overflow .exponent), s)
  | node, s => checkedArithmetic node s

theorem wrappingArithmeticBy_eq {power : Int32 → Int32 → FloatValue} (h : ComputesPowers power) :
    wrappingArithmeticBy power = wrappingArithmetic := by
  funext node
  cases node with
  | exponent a n => exact h.toInt32_eq a n
  | constant _ | negate _ | addition _ _ | multiplication _ _ => rfl

theorem checkedArithmeticBy_eq {power : Int32 → Int32 → FloatValue} (h : ComputesPowers power) :
    checkedArithmeticBy power = checkedArithmetic := by
  funext node s
  cases node with
  | exponent a n =>
    simp only [checkedArithmeticBy, checkedArithmetic, exactValue, h.checkedInt32_eq]
    rfl
  | constant _ | negate _ | addition _ _ | multiplication _ _ => rfl

/-- Whatever is taken for powers, the answers of checked arithmetic are those of wrapping
arithmetic. -/
theorem wrappingArithmeticBy_of_checkedArithmeticBy (power : Int32 → Int32 → FloatValue)
    (node : Node Int32) (s : Unit) (v : Int32) (t : Unit)
    (h : checkedArithmeticBy power node s = (.ok v, t)) :
    wrappingArithmeticBy power node = v := by
  -- Only at a power does it matter what is taken for powers.
  cases node with
  | constant u => exact wrappingArithmetic_of_checkedArithmetic (.constant u) s v t h
  | negate a => exact wrappingArithmetic_of_checkedArithmetic (.negate a) s v t h
  | exponent a n =>
    apply FloatValue.toInt32_of_checkedInt32
    simp only [checkedArithmeticBy] at h
    split at h
    next w hw =>
      cases h
      exact hw
    next => cases h
  | addition a b => exact wrappingArithmetic_of_checkedArithmetic (.addition a b) s v t h
  | multiplication a b =>
    exact wrappingArithmetic_of_checkedArithmetic (.multiplication a b) s v t h

end Reckoner
