import Reckoner.Proofs.Json.Drafts

/-!
# Integer literals

Which literals stand for a 32-bit integer: those with neither a fraction nor an exponent whose
digits give an integer in range, except `-0` (`Numeral.Denotes`).  A 32-bit integer is read from
such a literal, and from no other document (`readInt32_eq_ok_iff`).
-/

namespace Reckoner.Json

/-- Whether a literal is that of a 32-bit integer. -/
structure Numeral.Denotes (n : Numeral) (v : Int32) : Prop where
  fraction : n.fraction = none
  exponent : n.exponent = none
  /-- The literal is not `-0`. -/
  nonzero : n.negative = true → ofDigits n.whole ≠ 0
  value : (if n.negative then -(ofDigits n.whole : Int) else ofDigits n.whole) = v.toInt

/-- The integer that a number is. -/
def Number.integer? : Number → Option Int
  | .natural n => some n
  | .negative i => some i
  | .real _ => none

namespace Numeral

/-- A literal is an integer if it has the form of one and 64 bits are enough for it. -/
theorem bind_number?_integer? (n : Numeral) : n.number?.bind Number.integer? =
    if n.fraction.isSome || n.exponent.isSome then none
    else if n.negative then
      if 0 < ofDigits n.whole && ofDigits n.whole ≤ Nat.pow 2 63 then
        some (-(ofDigits n.whole : Int))
      else none
    else if ofDigits n.whole ≤ significandLimit then some (ofDigits n.whole : Int)
    else none := by
  -- A double is no integer, be it in range or not.
  have hreal : ∀ f : Float → Float,
      (n.magnitude?.map fun x => Number.real (f x)).bind Number.integer? = none := by
    intro f
    cases n.magnitude? <;> rfl
  unfold number?
  dsimp only
  split
  · exact hreal _
  · split
    · split
      · rfl
      · exact hreal _
    · split
      · rfl
      · exact hreal _

theorem bind_number?_eq_some_iff {n : Numeral} {v : Int32} :
    n.number?.bind Number.integer? = some v.toInt ↔ n.Denotes v := by
  have hlower := v.le_toInt
  have hupper := v.toInt_lt
  rw [bind_number?_integer?]
  -- A 32-bit integer needs less than 64 bits, whichever its sign is.
  constructor
  · intro h
    split at h
    · cases h
    next hparts =>
      simp only [Bool.or_eq_true, not_or, Bool.not_eq_true, Option.isSome_eq_false_iff,
        Option.isNone_iff_eq_none] at hparts
      split at h
      next hnegative =>
        split at h
        next hwhole =>
          simp only [Bool.and_eq_true, decide_eq_true_eq] at hwhole
          refine ⟨hparts.1, hparts.2, fun _ => by omega, ?_⟩
          rw [if_pos hnegative, Option.some.inj h]
        next => cases h
      next hnegative =>
        split at h
        next =>
          refine ⟨hparts.1, hparts.2, fun h => absurd h hnegative, ?_⟩
          rw [if_neg hnegative, Option.some.inj h]
        next => cases h
  · intro h
    have hvalue := h.value
    rw [h.fraction, h.exponent, if_neg (by simp)]
    split
    next hnegative =>
      rw [if_pos hnegative] at hvalue
      have hnonzero := h.nonzero hnegative
      have hwhole : 0 < ofDigits n.whole ∧ ofDigits n.whole ≤ Nat.pow 2 63 := by
        show _ ∧ _ ≤ 9223372036854775808
        omega
      simp [hwhole.1, hwhole.2, hvalue]
    next hnegative =>
      rw [if_neg hnegative] at hvalue
      have hwhole : ofDigits n.whole ≤ significandLimit := by
        show _ ≤ 18446744073709551615
        omega
      rw [if_pos hwhole, hvalue]

/-- A literal of a 32-bit integer is in the range of numbers. -/
theorem Denotes.isSome_number? {n : Numeral} {v : Int32} (h : n.Denotes v) :
    n.number?.isSome = true := by
  obtain ⟨number, hnumber, -⟩ := Option.bind_eq_some_iff.mp (bind_number?_eq_some_iff.mpr h)
  rw [hnumber]
  rfl

end Numeral

/-- A value is read as a 32-bit integer if it is an integer and in range. -/
theorem readInt32_eq_ok_iff_of_found {d : Draft} {found : Found} (h : d.found = .ok found)
    {v : Int32} : readInt32 d = .ok v ↔ found.integer? = some v.toInt := by
  unfold readInt32
  rw [h]
  cases hinteger : found.integer? with
  | none => simp [orFault, bind, Except.bind, mismatch, hinteger]
  | some i =>
    have hvalue : toInt32? i = some v ↔ i = v.toInt := toInt32?_eq_some_iff
    rw [Option.some.injEq, ← hvalue]
    -- The integer is in range or it is not.
    cases hi : toInt32? i <;>
      simp [orFault, bind, Except.bind, pure, Except.pure, mismatch, hinteger, hi]

theorem readInt32_number_eq_ok_iff {n : Numeral} {v : Int32} :
    readInt32 (.number n) = .ok v ↔ n.Denotes v := by
  rw [← Numeral.bind_number?_eq_some_iff]
  have hfound : ∀ number : Number, n.number? = some number → ∃ found,
      (Draft.number n).found = .ok found ∧ found.integer? = number.integer? := by
    intro number hnumber
    cases number with
    | natural i => exact ⟨.natural i, by rw [Draft.found, Found.ofNumeral?, hnumber]; rfl, rfl⟩
    | negative i => exact ⟨.negative i, by rw [Draft.found, Found.ofNumeral?, hnumber]; rfl, rfl⟩
    | real x => exact ⟨.real x, by rw [Draft.found, Found.ofNumeral?, hnumber]; rfl, rfl⟩
  cases hnumber : n.number? with
  | none =>
    simp [readInt32, Draft.found, Found.ofNumeral?, hnumber, orFault, fault, bind, Except.bind]
  | some number =>
    obtain ⟨found, hok, hinteger⟩ := hfound number hnumber
    rw [readInt32_eq_ok_iff_of_found hok, hinteger]
    rfl

/-- A 32-bit integer is read from its literals only. -/
theorem readInt32_eq_ok_iff {d : Document} {v : Int32} :
    readInt32 d.draft = .ok v ↔ ∃ n, d = .number n ∧ n.Denotes v := by
  cases d with
  | number n => simp [Document.draft, readInt32_number_eq_ok_iff]
  | null | bool _ | text _ | array _ | object _ =>
    rw [Document.draft, readInt32_eq_ok_iff_of_found rfl]
    simp [Found.integer?]

end Reckoner.Json
