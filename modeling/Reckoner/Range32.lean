/-!
# The range of 32-bit integers

Which integers are 32-bit integers, and how they become such.
-/

namespace Reckoner

/-- Whether an integer is a 32-bit integer. -/
def InRange (i : Int) : Prop := -2147483648 ≤ i ∧ i ≤ 2147483647

instance (i : Int) : Decidable (InRange i) := by unfold InRange; infer_instance

/-- The 32-bit integer of that value, if there is one. -/
def toInt32? (i : Int) : Option Int32 :=
  if InRange i then some (Int32.ofInt i) else none

/-- The value of a 32-bit integer is in range. -/
theorem inRange_toInt (v : Int32) : InRange v.toInt := by
  have hlower := v.le_toInt
  have hupper := v.toInt_lt
  unfold InRange
  omega

/-- An integer in range is the value of its 32-bit integer. -/
theorem toInt_ofInt_of_inRange {i : Int} (hi : InRange i) : (Int32.ofInt i).toInt = i := by
  obtain ⟨hlower, hupper⟩ := hi
  apply Int32.toInt_ofInt_of_le <;> omega

/-- An integer becomes the 32-bit integer of its value, and no other one. -/
theorem toInt32?_eq_some_iff {i : Int} {v : Int32} : toInt32? i = some v ↔ i = v.toInt := by
  unfold toInt32?
  split
  next hi =>
    constructor
    · intro h
      rw [← Option.some.inj h, toInt_ofInt_of_inRange hi]
    · intro h
      rw [h, Int32.ofInt_toInt]
  -- Out of range there is none, and all values are in range.
  next hi =>
    constructor
    · intro h
      cases h
    · intro h
      exact absurd (h ▸ inRange_toInt v) hi

/-- Out of range there is no 32-bit integer. -/
theorem toInt32?_of_not_inRange {i : Int} (hi : ¬ InRange i) : toInt32? i = none := if_neg hi

/-! ## Bringing integers into range -/

/-- What is too great becomes the greatest one. -/
theorem ofIntClamp_of_gt {i : Int} (hi : 2147483647 < i) :
    Int32.ofIntClamp i = Int32.maxValue := by
  have hlower : Int32.minValue.toInt ≤ i := by
    rw [Int32.toInt_minValue]
    omega
  have hupper : ¬ i ≤ Int32.maxValue.toInt := by
    rw [Int32.toInt_maxValue]
    omega
  unfold Int32.ofIntClamp
  rw [dif_pos hlower, dif_neg hupper]

/-- What is too small becomes the smallest one. -/
theorem ofIntClamp_of_lt {i : Int} (hi : i < -2147483648) :
    Int32.ofIntClamp i = Int32.minValue := by
  have hlower : ¬ Int32.minValue.toInt ≤ i := by
    rw [Int32.toInt_minValue]
    omega
  unfold Int32.ofIntClamp
  rw [dif_neg hlower]

/-- What is in range stays as it is. -/
theorem ofIntClamp_of_inRange {i : Int} (hi : InRange i) :
    Int32.ofIntClamp i = Int32.ofInt i := by
  rw [← toInt_ofInt_of_inRange hi, Int32.ofIntClamp_toInt, Int32.ofInt_toInt]

end Reckoner
