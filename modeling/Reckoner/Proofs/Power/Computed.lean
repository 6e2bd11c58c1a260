import Reckoner.Proofs.Power.Exact

/-!
# Powers computed in doubles

Powers are usually computed in floating point and then narrowed to 32 bits.  There are two ways to
narrow: to cut off and bring into range, or to cut off and refuse what is out of range.  A double
is taken as the rational number that it stands for, as an infinity, or as no number at all.

Of the function that computes powers only `ComputesPowers` is assumed: it is exact up to 53 bits,
and beyond that it may be wrong by any amount that does not change the 32-bit result.  Narrowing
then gives the saturating and the checked power (`ComputesPowers.toInt32_eq`,
`ComputesPowers.checkedInt32_eq`).
-/

namespace Reckoner

/-- What a floating-point number stands for.  Zeros have no sign here. -/
inductive FloatValue where
  | finite (q : ℚ)
  | positiveInfinity
  | negativeInfinity
  | notANumber

namespace FloatValue

/-! ## Narrowing -/

/-- The number without its fraction. -/
def trunc : FloatValue → FloatValue
  | .finite q => .finite (cutOff q)
  | d => d

/-- The number cut off and brought into range. -/
def toInt32 : FloatValue → Int32
  | .finite q => Int32.ofIntClamp (cutOff q)
  | .positiveInfinity => Int32.maxValue
  | .negativeInfinity => Int32.minValue
  | .notANumber => 0

/-- Whether a number lies between two rational numbers. -/
def Between (lower upper : ℚ) : FloatValue → Prop
  | .finite q => lower ≤ q ∧ q ≤ upper
  | _ => False

instance (lower upper : ℚ) (d : FloatValue) : Decidable (d.Between lower upper) := by
  cases d <;> unfold Between <;> infer_instance

/-- The number cut off, if it is in range then. -/
def checkedInt32 (d : FloatValue) : Option Int32 :=
  if d.trunc.Between (-2147483648) 2147483647 then some d.trunc.toInt32 else none

theorem trunc_between_iff (q : ℚ) :
    (trunc (.finite q)).Between (-2147483648) 2147483647 ↔ InRange (cutOff q) := by
  show (-2147483648 : ℚ) ≤ ((cutOff q : Int) : ℚ) ∧ ((cutOff q : Int) : ℚ) ≤ 2147483647 ↔ _
  unfold InRange
  norm_cast

/-- Comparing what is cut off with both ends of the range finds the 32-bit integers. -/
theorem checkedInt32_finite (q : ℚ) : checkedInt32 (.finite q) = toInt32? (cutOff q) := by
  unfold checkedInt32
  by_cases hin : InRange (cutOff q)
  · rw [if_pos ((trunc_between_iff q).mpr hin)]
    -- What has been cut off once is not changed by being cut off again.
    show some (Int32.ofIntClamp (cutOff ((cutOff q : Int) : ℚ))) = _
    rw [cutOff_intCast, ofIntClamp_of_inRange hin]
    exact (if_pos hin).symm
  · rw [if_neg (mt (trunc_between_iff q).mp hin)]
    exact (toInt32?_of_not_inRange hin).symm

/-- What is not refused is not changed by being brought into range. -/
theorem toInt32_of_checkedInt32 {d : FloatValue} {v : Int32} (h : d.checkedInt32 = some v) :
    d.toInt32 = v := by
  cases d with
  | finite q =>
    rw [checkedInt32_finite] at h
    show Int32.ofIntClamp (cutOff q) = v
    rw [toInt32?_eq_some_iff.mp h, Int32.ofIntClamp_toInt]
  | positiveInfinity | negativeInfinity | notANumber => cases h

/-! ## Numbers that are as good as a power -/

/-- Whether a number may stand for a power, as far as 32-bit integers can tell. -/
def StandsFor (power : Option Int) : FloatValue → Prop
  | .finite q => Alike (some (cutOff q)) power
  | .positiveInfinity => power = none ∨ ∃ p, power = some p ∧ 2147483647 < p
  | .negativeInfinity => ∃ p, power = some p ∧ p < -2147483648
  | .notANumber => False

theorem StandsFor.toInt32_eq {d : FloatValue} {power : Option Int} (h : d.StandsFor power) :
    d.toInt32 = clamped power := by
  cases d with
  | finite q => exact Alike.clamped_eq h
  | positiveInfinity =>
    rcases h with rfl | ⟨p, rfl, hp⟩
    · rfl
    · exact (ofIntClamp_of_gt hp).symm
  | negativeInfinity =>
    obtain ⟨p, rfl, hp⟩ := h
    exact (ofIntClamp_of_lt hp).symm
  | notANumber => exact h.elim

theorem StandsFor.checkedInt32_eq {d : FloatValue} {power : Option Int} (h : d.StandsFor power) :
    d.checkedInt32 = power.bind toInt32? := by
  have hrefused : ∀ p : Int, ¬ InRange p → (some p).bind toInt32? = none := fun p hp =>
    toInt32?_of_not_inRange hp
  -- An infinity is refused, and so is the power that it stands for.
  cases d with
  | finite q =>
    rw [checkedInt32_finite]
    exact Alike.bind_eq h
  | positiveInfinity =>
    rcases h with rfl | ⟨p, rfl, hp⟩
    · rfl
    · rw [hrefused p fun hin => absurd hin.2 (not_le.mpr hp)]
      rfl
  | negativeInfinity =>
    obtain ⟨p, rfl, hp⟩ := h
    rw [hrefused p fun hin => absurd hin.1 (not_le.mpr hp)]
    rfl
  | notANumber => exact h.elim

end FloatValue

/-! ## Functions that compute powers -/

/-- What is assumed of a function that computes powers in doubles: an integer of at most 53 bits
is exact; a greater power keeps its sign and stays beyond 31 bits; a negative power of an integer
other than -1, 0 and 1 is less than one; and a negative power of zero is infinite. -/
structure ComputesPowers (power : Int32 → Int32 → FloatValue) : Prop where
  exact : ∀ (b n : Int32) (p : Int), (b = 0 → 0 ≤ n.toInt) →
    (b.toInt : ℚ) ^ n.toInt = p → |p| ≤ 2 ^ 53 → power b n = .finite p
  tooGreat : ∀ b n : Int32, 0 ≤ n.toInt → 2 ^ 53 < b.toInt ^ n.toInt.toNat →
    power b n = .positiveInfinity ∨ ∃ q, power b n = .finite q ∧ 2 ^ 31 < cutOff q
  tooSmall : ∀ b n : Int32, 0 ≤ n.toInt → b.toInt ^ n.toInt.toNat < -2 ^ 53 →
    power b n = .negativeInfinity ∨ ∃ q, power b n = .finite q ∧ cutOff q < -2 ^ 31
  fraction : ∀ b n : Int32, 2 ≤ |b.toInt| → n.toInt < 0 →
    ∃ q, power b n = .finite q ∧ |q| < 1
  ofZero : ∀ n : Int32, n.toInt < 0 → power 0 n = .positiveInfinity

namespace ComputesPowers

variable {power : Int32 → Int32 → FloatValue}

private theorem standsFor_of_nonneg (h : ComputesPowers power) (b n : Int32)
    (hn : 0 ≤ n.toInt) : (power b n).StandsFor (exactPower b.toInt n.toInt) := by
  have hcast := zpow_eq_intCast b.toInt hn
  rw [exactPower_of_nonneg _ hn]
  generalize hp : b.toInt ^ n.toInt.toNat = p at hcast
  -- Up to 53 bits the power is exact.
  by_cases hsmall : |p| ≤ 2 ^ 53
  · rw [h.exact b n p (fun _ => hn) hcast hsmall]
    exact Or.inl (congrArg some (cutOff_intCast p))
  -- Only the sign is known of a number of more than 53 bits.
  rcases lt_or_gt_of_ne (fun hzero : p = 0 => hsmall (by simp [hzero])) with hneg | hpos
  · have hbelow : p < -2 ^ 53 := by
      rw [abs_of_neg hneg] at hsmall
      omega
    rcases h.tooSmall b n hn (hp ▸ hbelow) with hd | ⟨q, hd, hq⟩
    · rw [hd]
      exact ⟨p, rfl, by omega⟩
    · rw [hd]
      exact Or.inr ⟨_, p, rfl, rfl, Or.inr ⟨by omega, by omega⟩⟩
  · have habove : 2 ^ 53 < p := by
      rw [abs_of_pos hpos] at hsmall
      omega
    rcases h.tooGreat b n hn (hp ▸ habove) with hd | ⟨q, hd, hq⟩
    · rw [hd]
      exact Or.inr ⟨p, rfl, by omega⟩
    · rw [hd]
      exact Or.inr ⟨_, p, rfl, rfl, Or.inl ⟨by omega, by omega⟩⟩

private theorem standsFor_of_neg (h : ComputesPowers power) (b n : Int32) (hn : n.toInt < 0) :
    (power b n).StandsFor (exactPower b.toInt n.toInt) := by
  by_cases hzero : b = 0
  · -- An infinity is as good as a power that does not exist.
    subst hzero
    rw [h.ofZero n hn]
    left
    unfold exactPower
    exact if_pos ⟨rfl, hn⟩
  have hbase : b.toInt ≠ 0 := fun hb => hzero (Int32.toInt_inj.mp hb)
  have hpower : exactPower b.toInt n.toInt = some (cutOff ((b.toInt : ℚ) ^ n.toInt)) := by
    unfold exactPower
    rw [if_neg fun hexists => hbase hexists.1]
  rw [hpower]
  by_cases hlarge : 2 ≤ |b.toInt|
  · -- Both the power and the number computed for it are cut off to zero.
    obtain ⟨q, hd, hq⟩ := h.fraction b n hlarge hn
    rw [hd]
    left
    rw [cutOff_of_abs_lt_one hq, cutOff_of_abs_lt_one (abs_zpow_lt_one hlarge hn)]
  · -- The powers of 1 and -1 are integers.
    have hunit : b.toInt = 1 ∨ b.toInt = -1 := by
      rcases abs_cases b.toInt with ⟨habs, _⟩ | ⟨habs, _⟩ <;> omega
    obtain ⟨p, hp, hsmall⟩ : ∃ p : Int, (b.toInt : ℚ) ^ n.toInt = p ∧ |p| ≤ 2 ^ 53 := by
      rcases hunit with hone | hminus
      · exact ⟨1, by rw [hone, Int.cast_one, one_zpow], by norm_num⟩
      · rcases Int.even_or_odd n.toInt with heven | hodd
        · exact ⟨1, by rw [hminus, Int.cast_neg, Int.cast_one, heven.neg_one_zpow], by norm_num⟩
        · exact ⟨-1, by rw [hminus, Int.cast_neg, Int.cast_one, hodd.neg_one_zpow], by norm_num⟩
    rw [h.exact b n p (fun hb => absurd hb hzero) hp hsmall, hp]
    exact Or.inl rfl

theorem standsFor (h : ComputesPowers power) (b n : Int32) :
    (power b n).StandsFor (exactPower b.toInt n.toInt) := by
  rcases lt_or_ge n.toInt 0 with hneg | hnonneg
  · exact standsFor_of_neg h b n hneg
  · exact standsFor_of_nonneg h b n hnonneg

/-- Bringing a computed power into range gives the saturating power. -/
theorem toInt32_eq (h : ComputesPowers power) (b n : Int32) :
    (power b n).toInt32 = saturatingPower b n := by
  rw [saturatingPower_eq]
  exact (h.standsFor b n).toInt32_eq

/-- Refusing a computed power that is out of range gives the checked power. -/
theorem checkedInt32_eq (h : ComputesPowers power) (b n : Int32) :
    (power b n).checkedInt32 = checkedPower b n := by
  rw [checkedPower_eq]
  exact (h.standsFor b n).checkedInt32_eq

end ComputesPowers

/-- The power itself, as if every rational number were a double. -/
def exactFloatValue (b n : Int32) : FloatValue :=
  if b = 0 ∧ n.toInt < 0 then .positiveInfinity else .finite ((b.toInt : ℚ) ^ n.toInt)

/-- The power itself meets the assumptions. -/
theorem computesPowers_exactFloatValue : ComputesPowers exactFloatValue := by
  have hfinite : ∀ b n : Int32, (b = 0 → 0 ≤ n.toInt) →
      exactFloatValue b n = .finite ((b.toInt : ℚ) ^ n.toInt) := by
    intro b n hexists
    unfold exactFloatValue
    rw [if_neg fun hzero => absurd hzero.2 (not_lt.mpr (hexists hzero.1))]
  have hcutOff : ∀ b n : Int32, 0 ≤ n.toInt →
      cutOff ((b.toInt : ℚ) ^ n.toInt) = b.toInt ^ n.toInt.toNat := by
    intro b n hn
    rw [zpow_eq_intCast _ hn, cutOff_intCast]
  constructor
  case exact =>
    intro b n p hexists hp _
    rw [hfinite b n hexists, hp]
  case tooGreat =>
    intro b n hn hp
    refine Or.inr ⟨_, hfinite b n fun _ => hn, ?_⟩
    rw [hcutOff b n hn]
    omega
  case tooSmall =>
    intro b n hn hp
    refine Or.inr ⟨_, hfinite b n fun _ => hn, ?_⟩
    rw [hcutOff b n hn]
    omega
  case fraction =>
    intro b n hlarge hn
    refine ⟨_, hfinite b n ?_, abs_zpow_lt_one hlarge hn⟩
    rintro rfl
    exact absurd hlarge (by decide)
  case ofZero =>
    intro n hn
    exact if_pos ⟨rfl, hn⟩

end Reckoner
