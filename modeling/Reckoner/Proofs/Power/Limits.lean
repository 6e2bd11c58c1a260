import Reckoner.Proofs.Evaluation.Arithmetic

/-!
# Powers at the limits of 32 bits

What both arithmetics make of a power, case by case: for exponents that are not negative, for
negative ones, and where the power does not exist or is no 32-bit integer (`exponent_atLimits`).
With exponents of up to 31 bits a power can have more than 10 ^ 10 digits, but where it leaves the
range its sign is all that matters, and the sign is seen from the base and the parity of the
exponent (`saturatingPower_of_not_powerFits`).
-/

namespace Reckoner

/-! ## Bringing integers into range -/

theorem toInt_ofIntClamp_eq (i : Int) :
    (Int32.ofIntClamp i).toInt = max (-2147483648) (min 2147483647 i) := by
  -- An integer is above the range, below it or in it.
  by_cases hgt : 2147483647 < i
  · rw [ofIntClamp_of_gt hgt, Int32.toInt_maxValue]
    omega
  by_cases hlt : i < -2147483648
  · rw [ofIntClamp_of_lt hlt, Int32.toInt_minValue]
    omega
  have hin : InRange i := ⟨not_lt.mp hlt, not_lt.mp hgt⟩
  rw [ofIntClamp_of_inRange hin, toInt_ofInt_of_inRange hin]
  omega

/-! ## Powers case by case -/

theorem toInt_saturatingPower_of_nonneg (b : Int32) {n : Int32} (hn : 0 ≤ n.toInt) :
    (saturatingPower b n).toInt =
      max (-2147483648) (min 2147483647 (b.toInt ^ n.toInt.toNat)) := by
  rw [saturatingPower_eq, exactPower_of_nonneg _ hn, clamped, toInt_ofIntClamp_eq]

theorem saturatingPower_of_neg (b : Int32) {n : Int32} (hn : n.toInt < 0) :
    saturatingPower b n =
      if b = 0 then Int32.maxValue else if b = 1 then 1
      else if b = -1 then (if Even n.toInt then 1 else -1) else 0 := by
  -- The bases are compared as integers on the one side and as 32-bit integers on the other.
  have hvalue : ∀ c : Int32, b.toInt = c.toInt ↔ b = c := fun c => Int32.toInt_inj
  have hzero : b.toInt = 0 ↔ b = 0 := hvalue 0
  have hone : b.toInt = 1 ↔ b = 1 := hvalue 1
  have hminus : b.toInt = -1 ↔ b = -1 := hvalue (-1)
  rw [saturatingPower_eq, exactPower_of_neg _ hn]
  simp only [hzero, hone, hminus]
  split_ifs <;> rfl

/-! ## Powers that fit -/

/-- Whether the power, cut off toward zero, exists and is a 32-bit integer. -/
def PowerFits (b n : Int32) : Prop :=
  ∃ p, exactPower b.toInt n.toInt = some p ∧ InRange p

/-- A power that fits is found by both arithmetics. -/
theorem checkedPower_of_powerFits {b n : Int32} (h : PowerFits b n) :
    checkedPower b n = some (saturatingPower b n) := by
  obtain ⟨p, hp, hin⟩ := h
  rw [checkedPower_eq_some_iff, saturatingPower_eq, hp, clamped, ofIntClamp_of_inRange hin,
    toInt_ofInt_of_inRange hin]

theorem checkedPower_eq_none_iff {b n : Int32} : checkedPower b n = none ↔ ¬PowerFits b n := by
  constructor
  · intro h hfits
    rw [checkedPower_of_powerFits hfits] at h
    cases h
  · intro hfits
    cases hpower : checkedPower b n with
    | none => rfl
    | some v =>
      -- Whatever is found is the exact power, and it is in range.
      have hexact := checkedPower_eq_some_iff.mp hpower
      exact absurd ⟨_, hexact, inRange_toInt v⟩ hfits

/-- All negative powers fit, except those of zero. -/
theorem powerFits_of_neg {b n : Int32} (hn : n.toInt < 0) (hb : b.toInt ≠ 0) : PowerFits b n := by
  unfold PowerFits
  rw [exactPower_of_neg _ hn, if_neg hb]
  split_ifs
  · exact ⟨1, rfl, by decide⟩
  · exact ⟨1, rfl, by decide⟩
  · exact ⟨-1, rfl, by decide⟩
  · exact ⟨0, rfl, by decide⟩

/-- A power that does not fit is brought to the end of the range that is on its side. -/
theorem saturatingPower_of_not_powerFits {b n : Int32} (h : ¬PowerFits b n) :
    saturatingPower b n =
      if b.toInt < 0 ∧ Odd n.toInt then Int32.minValue else Int32.maxValue := by
  rw [saturatingPower_eq]
  rcases lt_or_ge n.toInt 0 with hn | hn
  · -- Only a power of zero can be missing.
    have hb : b.toInt = 0 := by
      by_contra hb
      exact h (powerFits_of_neg hn hb)
    rw [exactPower_of_neg _ hn, if_pos hb, if_neg fun hodd => absurd hodd.1 (by omega)]
    rfl
  · have hpower := exactPower_of_nonneg b.toInt hn
    have hrange : ¬InRange (b.toInt ^ n.toInt.toNat) := fun hin => h ⟨_, hpower, hin⟩
    unfold InRange at hrange
    have hodd : Odd n.toInt ↔ Odd n.toInt.toNat := by
      rw [← Int.odd_coe_nat, Int.toNat_of_nonneg hn]
    rw [hpower, clamped]
    simp only [hodd]
    -- Of a power out of range the sign is enough: only odd powers of negative bases are negative.
    split_ifs with hsign
    · have hpow : b.toInt ^ n.toInt.toNat < 0 := hsign.2.pow_neg hsign.1
      exact ofIntClamp_of_lt (by omega)
    · have hpow : 0 ≤ b.toInt ^ n.toInt.toNat := by
        by_cases hb : b.toInt < 0
        · have heven : Even n.toInt.toNat := Nat.not_odd_iff_even.mp fun hk => hsign ⟨hb, hk⟩
          exact heven.pow_nonneg b.toInt
        · exact pow_nonneg (not_lt.mp hb) n.toInt.toNat
      exact ofIntClamp_of_gt (by omega)

/-! ## Both arithmetics at a power -/

theorem checkedArithmetic_exponent_of_powerFits {b n : Int32} (h : PowerFits b n) :
    checkedArithmetic (.exponent b n) () = (.ok (wrappingArithmetic (.exponent b n)), ()) := by
  simp only [checkedArithmetic, exactValue, checkedPower_of_powerFits h]
  rfl

theorem checkedArithmetic_exponent_of_not_powerFits {b n : Int32} (h : ¬PowerFits b n) :
    checkedArithmetic (.exponent b n) () = (.error (.overflow .exponent), ()) := by
  simp only [checkedArithmetic, exactValue, checkedPower_eq_none_iff.mpr h]
  rfl

/-- **Powers at the limits of 32 bits**, for every base and exponent.  Wrapping arithmetic brings
the exact power into range if the exponent is not negative; if it is, the power of zero counts as
too great, those of 1 and -1 are 1 or -1, and all others are cut off to zero.  Checked arithmetic
answers the same just if the power, cut off toward zero, exists and is in range.  Otherwise it
fails, and wrapping arithmetic answers the lower end of the range for an odd power of a negative
base and the upper end in all other cases.  It does not matter which function computes the powers
in floating point before they are narrowed. -/
theorem exponent_atLimits (b n : Int32) :
    (0 ≤ n.toInt → (wrappingArithmetic (.exponent b n)).toInt =
      max (-2147483648) (min 2147483647 (b.toInt ^ n.toInt.toNat))) ∧
    (n.toInt < 0 → wrappingArithmetic (.exponent b n) =
      if b = 0 then Int32.maxValue else if b = 1 then 1
      else if b = -1 then (if Even n.toInt then 1 else -1) else 0) ∧
    (checkedArithmetic (.exponent b n) () = (.ok (wrappingArithmetic (.exponent b n)), ()) ↔
      PowerFits b n) ∧
    (checkedArithmetic (.exponent b n) () = (.error (.overflow .exponent), ()) ↔
      ¬PowerFits b n) ∧
    (¬PowerFits b n → wrappingArithmetic (.exponent b n) =
      if b.toInt < 0 ∧ Odd n.toInt then Int32.minValue else Int32.maxValue) ∧
    ∀ power, ComputesPowers power →
      wrappingArithmeticBy power = wrappingArithmetic ∧
        checkedArithmeticBy power = checkedArithmetic := by
  refine ⟨toInt_saturatingPower_of_nonneg b, saturatingPower_of_neg b, ?answers, ?fails,
    saturatingPower_of_not_powerFits, ?computed⟩
  case answers =>
    refine ⟨?_, checkedArithmetic_exponent_of_powerFits⟩
    intro h
    by_contra hfits
    rw [checkedArithmetic_exponent_of_not_powerFits hfits] at h
    cases h
  case fails =>
    refine ⟨?_, checkedArithmetic_exponent_of_not_powerFits⟩
    intro h hfits
    rw [checkedArithmetic_exponent_of_powerFits hfits] at h
    cases h
  case computed =>
    intro power hpower
    exact ⟨wrappingArithmeticBy_eq hpower, checkedArithmeticBy_eq hpower⟩

-- The lower end of the range is a power of two, and the upper end is not.
example : checkedPower (-2) 31 = some Int32.minValue ∧ checkedPower 2 31 = none := by decide

end Reckoner
