import Mathlib.Algebra.Order.Field.Power
import Mathlib.Algebra.Ring.Int.Parity
import Mathlib.Data.Rat.Floor
import Mathlib.Tactic.Linarith
import Mathlib.Tactic.NormNum
import Reckoner.Power

/-!
# Exact powers

`exactPower` is the power of two integers as a rational number, cut off toward zero.  The rule
`truncatedPower` computes it by cases (`truncatedPower_eq`).  `saturatingPower` is the exact power
brought into range (`saturatingPower_eq`), and `checkedPower` finds it whenever it is a 32-bit
integer and nothing otherwise (`checkedPower_eq`).

The evaluators replace a large exponent by a small one of the same parity.  What this can change
is said by `SameSide`: where the power itself changes, both powers lie beyond the same end of the
range of 32-bit integers, so that they are still `Alike`.
-/

namespace Reckoner

/-! ## Powers cut off toward zero -/

/-- The integer part of a rational number, cut off toward zero. -/
def cutOff (q : ℚ) : Int := if 0 ≤ q then ⌊q⌋ else ⌈q⌉

/-- The power of two integers, cut off toward zero; a negative power of zero does not exist. -/
def exactPower (base exponent : Int) : Option Int :=
  if base = 0 ∧ exponent < 0 then none else some (cutOff ((base : ℚ) ^ exponent))

/-- An integer has nothing to cut off. -/
theorem cutOff_intCast (i : Int) : cutOff i = i := by
  unfold cutOff
  rw [Int.floor_intCast, Int.ceil_intCast, ite_self]

/-- Of a proper fraction nothing is left. -/
theorem cutOff_of_abs_lt_one {q : ℚ} (hq : |q| < 1) : cutOff q = 0 := by
  obtain ⟨hlower, hupper⟩ := abs_lt.mp hq
  unfold cutOff
  split
  next hpos => exact Int.floor_eq_zero_iff.mpr ⟨hpos, hupper⟩
  next hneg => exact Int.ceil_eq_zero_iff.mpr ⟨hlower, le_of_not_ge hneg⟩

/-- A power of an integer with an exponent that is not negative is an integer. -/
theorem zpow_eq_intCast (base : Int) {exponent : Int} (h : 0 ≤ exponent) :
    (base : ℚ) ^ exponent = ((base ^ exponent.toNat : Int) : ℚ) := by
  conv_lhs => rw [← Int.toNat_of_nonneg h]
  rw [zpow_natCast, Int.cast_pow]

/-- A negative power of an integer other than -1, 0 and 1 is less than one. -/
theorem abs_zpow_lt_one {base exponent : Int} (hbase : 2 ≤ |base|) (hneg : exponent < 0) :
    |(base : ℚ) ^ exponent| < 1 := by
  have hone : (1 : ℚ) < |(base : ℚ)| := by
    have hcast : (2 : ℚ) ≤ ((|base| : Int) : ℚ) := by exact_mod_cast hbase
    rw [Int.cast_abs] at hcast
    linarith
  rw [abs_zpow]
  exact zpow_lt_one_of_neg₀ hone hneg

/-- The rule by cases gives the power cut off toward zero. -/
theorem truncatedPower_eq (base exponent : Int) :
    truncatedPower base exponent = exactPower base exponent := by
  unfold truncatedPower exactPower
  by_cases hneg : exponent < 0
  · rw [if_neg (not_le.mpr hneg)]
    -- The bases zero, one and minus one are the special ones.
    by_cases hzero : base = 0
    · rw [if_pos hzero, if_pos ⟨hzero, hneg⟩]
    have hexists : ¬ (base = 0 ∧ exponent < 0) := fun h => hzero h.1
    rw [if_neg hzero, if_neg hexists]
    by_cases hone : base = 1
    · subst hone
      rw [if_pos rfl, Int.cast_one, one_zpow]
      exact congrArg some (cutOff_intCast 1).symm
    rw [if_neg hone]
    by_cases hminus : base = -1
    · subst hminus
      rw [if_pos rfl, Int.cast_neg, Int.cast_one]
      -- The sign of a power of -1 is the parity of the exponent.
      rcases Int.even_or_odd exponent with heven | hodd
      · rw [if_pos (Int.even_iff.mp heven), heven.neg_one_zpow]
        exact congrArg some (cutOff_intCast 1).symm
      · have hmod := Int.odd_iff.mp hodd
        rw [if_neg (by omega), hodd.neg_one_zpow]
        exact congrArg some (cutOff_intCast (-1)).symm
    -- Any other power is a proper fraction.
    rw [if_neg hminus]
    have hlarge : 2 ≤ |base| := by
      rcases abs_cases base with ⟨h, _⟩ | ⟨h, _⟩ <;> omega
    rw [cutOff_of_abs_lt_one (abs_zpow_lt_one hlarge hneg)]
  · -- The power is an integer, so that nothing is cut off.
    have hnonneg := not_lt.mp hneg
    have hexists : ¬ (base = 0 ∧ exponent < 0) := fun h => hneg h.2
    rw [if_pos hnonneg, if_neg hexists, zpow_eq_intCast base hnonneg, cutOff_intCast]
    rfl

/-- The rule for an exponent that is not negative. -/
theorem truncatedPower_of_nonneg (base : Int) {exponent : Int} (h : 0 ≤ exponent) :
    truncatedPower base exponent = some (base ^ exponent.toNat) := by
  rw [truncatedPower, if_pos h]
  rfl

/-- With an exponent that is not negative the power is an integer. -/
theorem exactPower_of_nonneg (base : Int) {exponent : Int} (h : 0 ≤ exponent) :
    exactPower base exponent = some (base ^ exponent.toNat) := by
  rw [← truncatedPower_eq, truncatedPower_of_nonneg base h]

/-- With a negative exponent zero has no power, and only those of one and minus one are not zero. -/
theorem exactPower_of_neg (base : Int) {exponent : Int} (h : exponent < 0) :
    exactPower base exponent =
      if base = 0 then none else if base = 1 then some 1
      else if base = -1 then some (if Even exponent then 1 else -1) else some 0 := by
  rw [← truncatedPower_eq, truncatedPower, if_neg (not_le.mpr h)]
  simp only [Int.even_iff]

/-! ## Short exponents -/

/-- Two integers that lie beyond the same end of the range of 32-bit integers. -/
def SameSide (p q : Int) : Prop :=
  2147483647 < p ∧ 2147483647 < q ∨ p < -2147483648 ∧ q < -2147483648

/-- Large integers of the same sign lie beyond the same end. -/
private theorem sameSide_of_mul_pos {p q : Int} (hp : 2 ^ 32 ≤ |p|) (hq : 2 ^ 32 ≤ |q|)
    (hsign : 0 < p * q) : SameSide p q := by
  unfold SameSide
  -- Both are positive, or both are negative.
  rcases pos_and_pos_or_neg_and_neg_of_mul_pos hsign with ⟨hp0, hq0⟩ | ⟨hp0, hq0⟩
  · left
    rw [abs_of_pos hp0] at hp
    rw [abs_of_pos hq0] at hq
    omega
  · right
    rw [abs_of_neg hp0] at hp
    rw [abs_of_neg hq0] at hq
    omega

/-- A power with an exponent of at least 32 of an integer other than -1, 0 and 1 is large. -/
private theorem two_pow_le_abs_pow {base : Int} (hbase : 2 ≤ |base|) {k : ℕ} (hk : 32 ≤ k) :
    2 ^ 32 ≤ |base ^ k| := by
  -- The least such power is that of two.
  rw [abs_pow]
  calc (2 : Int) ^ 32 ≤ 2 ^ k := pow_le_pow_right₀ (by norm_num) hk
    _ ≤ |base| ^ k := pow_le_pow_left₀ (by norm_num) hbase k

/-- Powers whose exponents are at least 32 and of the same parity are equal or lie beyond the
same end. -/
theorem pow_eq_or_sameSide (base : Int) {m n : ℕ} (hm : 32 ≤ m) (hn : 32 ≤ n)
    (hparity : m % 2 = n % 2) : base ^ m = base ^ n ∨ SameSide (base ^ m) (base ^ n) := by
  by_cases hbase : 2 ≤ |base|
  · -- The product of the two powers is an even power, so that their signs are the same.
    right
    apply sameSide_of_mul_pos (two_pow_le_abs_pow hbase hm) (two_pow_le_abs_pow hbase hn)
    rw [← pow_add]
    have heven : Even (m + n) := by
      rw [Nat.even_iff]
      omega
    apply heven.pow_pos
    intro hzero
    rw [hzero, abs_zero] at hbase
    omega
  · left
    -- For zero and one all these powers are the same, and for minus one the parity decides.
    have hsmall : base = 0 ∨ base = 1 ∨ base = -1 := by
      rcases abs_cases base with ⟨h, _⟩ | ⟨h, _⟩ <;> omega
    rcases hsmall with rfl | rfl | rfl
    · rw [zero_pow (by omega), zero_pow (by omega)]
    · rw [one_pow, one_pow]
    · apply neg_one_pow_congr
      rw [Nat.even_iff, Nat.even_iff, hparity]

/-- Two powers that become the same 32-bit integers: they are equal, or both lie beyond the same
end of the range. -/
def Alike (power power' : Option Int) : Prop :=
  power = power' ∨ ∃ p q, power = some p ∧ power' = some q ∧ SameSide p q

/-- The short exponent gives a power like that of the exponent itself. -/
theorem truncatedPower_shortExponent (base exponent : Int) :
    Alike (truncatedPower base (shortExponent exponent)) (truncatedPower base exponent) := by
  unfold shortExponent
  split
  next => exact Or.inl rfl
  next hlong =>
    -- Both exponents are natural numbers of at least 32 and of the same parity.
    have hpos : 0 ≤ exponent := by omega
    have hshort : 0 ≤ 32 + exponent % 2 := by omega
    rw [truncatedPower_of_nonneg _ hshort, truncatedPower_of_nonneg _ hpos]
    rcases pow_eq_or_sameSide base (m := (32 + exponent % 2).toNat) (n := exponent.toNat)
      (by omega) (by omega) (by omega) with heq | hside
    · exact Or.inl (congrArg some heq)
    · exact Or.inr ⟨_, _, rfl, rfl, hside⟩

/-! ## Powers as 32-bit integers -/

/-- A power brought into range: one that does not exist counts as too great. -/
def clamped : Option Int → Int32
  | some p => Int32.ofIntClamp p
  | none => Int32.maxValue

/-- Beyond an end there is no 32-bit integer. -/
theorem SameSide.not_inRange {p q : Int} (h : SameSide p q) : ¬ InRange p ∧ ¬ InRange q := by
  unfold SameSide at h
  unfold InRange
  omega

/-- Beyond the same end both are brought to this end. -/
theorem SameSide.ofIntClamp_eq {p q : Int} (h : SameSide p q) :
    Int32.ofIntClamp p = Int32.ofIntClamp q := by
  rcases h with ⟨hp, hq⟩ | ⟨hp, hq⟩
  · rw [ofIntClamp_of_gt hp, ofIntClamp_of_gt hq]
  · rw [ofIntClamp_of_lt hp, ofIntClamp_of_lt hq]

/-- What is brought into range does not tell such powers apart. -/
theorem Alike.clamped_eq {power power' : Option Int} (h : Alike power power') :
    clamped power = clamped power' := by
  rcases h with rfl | ⟨p, q, rfl, rfl, hside⟩
  · rfl
  · exact hside.ofIntClamp_eq

/-- Nor does a check of the range. -/
theorem Alike.bind_eq {power power' : Option Int} (h : Alike power power') :
    power.bind toInt32? = power'.bind toInt32? := by
  rcases h with rfl | ⟨p, q, rfl, rfl, hside⟩
  · rfl
  · -- Neither of two powers beyond an end fits.
    obtain ⟨hp, hq⟩ := hside.not_inRange
    rw [Option.bind_some, Option.bind_some, toInt32?_of_not_inRange hp,
      toInt32?_of_not_inRange hq]

/-- The saturating power is the exact one brought into range. -/
theorem saturatingPower_eq (base exponent : Int32) :
    saturatingPower base exponent = clamped (exactPower base.toInt exponent.toInt) := by
  rw [← truncatedPower_eq, ← (truncatedPower_shortExponent _ _).clamped_eq]
  rfl

/-- The checked power is the exact one, if that is a 32-bit integer. -/
theorem checkedPower_eq (base exponent : Int32) :
    checkedPower base exponent = (exactPower base.toInt exponent.toInt).bind toInt32? := by
  rw [← truncatedPower_eq, ← (truncatedPower_shortExponent _ _).bind_eq]
  rfl

/-- The checked power has a result just if the exact one is a 32-bit integer. -/
theorem checkedPower_eq_some_iff {base exponent value : Int32} :
    checkedPower base exponent = some value ↔
      exactPower base.toInt exponent.toInt = some value.toInt := by
  rw [checkedPower_eq, Option.bind_eq_some_iff]
  constructor
  · rintro ⟨p, hp, hvalue⟩
    rw [hp, toInt32?_eq_some_iff.mp hvalue]
  · intro hp
    exact ⟨value.toInt, hp, toInt32?_eq_some_iff.mpr rfl⟩

end Reckoner
