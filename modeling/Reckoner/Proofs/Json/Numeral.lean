import Reckoner.Json.Numeral
import Reckoner.Proofs.Text.Integer

/-!
# Number literals at the front of a text

A well-formed literal is taken off a text as it was written, if the text does not go on with a
character that could belong to it (`Numeral.scan_text`).  The literal of an integer is well-formed
(`Numeral.wellFormed_ofInt`), and it stands for this integer as long as 64 bits are enough
(`Numeral.number?_ofInt`).
-/

namespace Reckoner.Json

/-! ## Well-formed literals -/

/-- At least one digit, and nothing else. -/
structure DigitRun (ds : List Char) : Prop where
  nonempty : ds ≠ []
  digits : ∀ c ∈ ds, isDigit c = true

/-- What the grammar asks of the parts of a literal. -/
structure Numeral.WellFormed (n : Numeral) : Prop where
  whole : DigitRun n.whole
  /-- A zero in front stands alone. -/
  leadingZero : n.whole.head? = some '0' → n.whole = ['0']
  fraction : ∀ ds ∈ n.fraction, DigitRun ds
  exponent : ∀ x ∈ n.exponent, DigitRun x.2

/-- Whether a text does not start with a character that can go on with a literal. -/
def NoNumeral (cs : List Char) : Prop :=
  ∀ c ∈ cs.head?, isDigit c = false ∧ c ≠ '.' ∧ c ≠ 'e' ∧ c ≠ 'E'

/-- Nothing goes on at the end of a text. -/
theorem noNumeral_nil : NoNumeral [] := by
  intro c hc
  cases hc

/-- What a text starts with decides whether a literal goes on. -/
theorem noNumeral_cons {c : Char} {cs : List Char}
    (hc : isDigit c = false ∧ c ≠ '.' ∧ c ≠ 'e' ∧ c ≠ 'E') : NoNumeral (c :: cs) := by
  intro d hd
  rw [← Option.some.inj hd]
  exact hc

/-- In particular no digit follows. -/
theorem NoNumeral.noDigit {cs : List Char} (h : NoNumeral cs) : NoDigit cs :=
  fun c hc => (h c hc).1

namespace Numeral

/-! ## The parts of a literal -/

/-- Digits are taken up to the first character that is none. -/
theorem takeDigits_append {ds rest : List Char} (hds : DigitRun ds) (hrest : NoDigit rest) :
    takeDigits (ds ++ rest) = (ds, rest) := by
  unfold takeDigits
  rw [List.takeWhile_append_of_pos hds.digits, List.dropWhile_append_of_pos hds.digits]
  cases rest with
  | nil => simp
  | cons c cs => simp [hrest c rfl]

/-- The text of the part after the point, with the point. -/
def fractionText : Option (List Char) → List Char
  | some ds => '.' :: ds
  | none => []

/-- The text of an exponent, with its mark and its sign. -/
def exponentText : Option (Bool × List Char) → List Char
  | some (true, ds) => 'e' :: '-' :: ds
  | some (false, ds) => 'e' :: ds
  | none => []

/-- The text of a literal after its sign, with what follows the literal. -/
def unsignedText (n : Numeral) (rest : List Char) : List Char :=
  n.whole ++ (fractionText n.fraction ++ (exponentText n.exponent ++ rest))

/-- The text of a literal is its parts, one after the other. -/
theorem toList_text_append (n : Numeral) (rest : List Char) :
    n.text.toList ++ rest =
      if n.negative then '-' :: n.unsignedText rest else n.unsignedText rest := by
  obtain ⟨negative, whole, fraction, exponent⟩ := n
  unfold text unsignedText
  rw [String.toList_ofList]
  -- The parts are written in the same order in both texts.
  rcases exponent with _ | ⟨_ | _, ds⟩ <;> cases fraction <;> cases negative <;>
    simp [fractionText, exponentText]

/-- An exponent starts with its mark, so that digits in front of it end there. -/
theorem noDigit_exponentText (exponent : Option (Bool × List Char)) {rest : List Char}
    (hrest : NoNumeral rest) : NoDigit (exponentText exponent ++ rest) := by
  rcases exponent with _ | ⟨_ | _, ds⟩
  · exact hrest.noDigit
  · exact noDigit_cons rfl
  · exact noDigit_cons rfl

/-- A fraction starts with a point, so that digits in front of it end there. -/
theorem noDigit_fractionText (fraction : Option (List Char)) {rest : List Char}
    (hrest : NoDigit rest) : NoDigit (fractionText fraction ++ rest) := by
  cases fraction with
  | none => exact hrest
  | some ds => exact noDigit_cons rfl

/-! ## Taking the parts off a text -/

/-- The digits in front of the point are taken as they were written. -/
theorem scanWhole_append {whole rest : List Char} (hwhole : DigitRun whole)
    (hzero : whole.head? = some '0' → whole = ['0']) (hrest : NoDigit rest) :
    scanWhole (whole ++ rest) = .ok (whole, rest) := by
  by_cases h : whole.head? = some '0'
  · -- After a zero only the next character is looked at.
    rw [hzero h]
    cases rest with
    | nil => rfl
    | cons c cs => simp [scanWhole, hrest c rfl]
  · -- After any other digit all digits that follow are taken.
    obtain ⟨d, ds, rfl⟩ := List.exists_cons_of_ne_nil hwhole.nonempty
    have hd : d ≠ '0' := by
      rintro rfl
      exact h rfl
    have htake := takeDigits_append hwhole hrest
    rw [List.cons_append] at htake ⊢
    unfold scanWhole
    split
    next cs heq => exact absurd (List.cons.inj heq).1 hd
    next => rw [htake]

/-- The part after the point is taken as it was written, and without a point there is none. -/
theorem scanFraction_append {fraction : Option (List Char)} {rest : List Char}
    (hfraction : ∀ ds ∈ fraction, DigitRun ds) (hdigit : NoDigit rest)
    (hpoint : ∀ c ∈ rest.head?, c ≠ '.') :
    scanFraction (fractionText fraction ++ rest) = .ok (fraction, rest) := by
  cases fraction with
  | none =>
    show scanFraction rest = .ok (none, rest)
    unfold scanFraction
    split
    -- What follows starts with no point.
    next cs => exact absurd rfl (hpoint '.' rfl)
    next => rfl
  | some ds =>
    have hds := hfraction ds rfl
    have htake := takeDigits_append hds hdigit
    obtain ⟨d, ds', rfl⟩ := List.exists_cons_of_ne_nil hds.nonempty
    show scanFraction ('.' :: (d :: ds' ++ rest)) = _
    simp only [scanFraction, htake]

/-- Digits are not taken for a sign. -/
theorem takeSign_digits {ds rest : List Char} (hds : DigitRun ds) :
    takeSign (ds ++ rest) = (false, ds ++ rest) := by
  obtain ⟨d, ds', rfl⟩ := List.exists_cons_of_ne_nil hds.nonempty
  have hd := hds.digits d List.mem_cons_self
  rw [List.cons_append]
  -- A digit is neither a plus nor a minus.
  unfold takeSign
  split
  next heq =>
    rw [(List.cons.inj heq).1] at hd
    exact absurd hd (by decide)
  next heq =>
    rw [(List.cons.inj heq).1] at hd
    exact absurd hd (by decide)
  next => rfl

/-- The exponent is taken as it was written, and without its mark there is none. -/
theorem scanExponent_append {exponent : Option (Bool × List Char)} {rest : List Char}
    (hexponent : ∀ x ∈ exponent, DigitRun x.2) (hrest : NoNumeral rest) :
    scanExponent (exponentText exponent ++ rest) = .ok (exponent, rest) := by
  rcases exponent with _ | ⟨below, ds⟩
  · show scanExponent rest = .ok (none, rest)
    cases rest with
    | nil => rfl
    | cons c cs =>
      obtain ⟨-, -, hlower, hupper⟩ := hrest c rfl
      simp [scanExponent, hlower, hupper]
  · have hds := hexponent (below, ds) rfl
    have htake := takeDigits_append hds hrest.noDigit
    obtain ⟨d, ds', rfl⟩ := List.exists_cons_of_ne_nil hds.nonempty
    -- Only a negative exponent is written with a sign.
    cases below with
    | true =>
      show scanExponent ('e' :: '-' :: (d :: ds' ++ rest)) = _
      simp only [scanExponent, takeSign, htake, true_or, if_true]
    | false =>
      show scanExponent ('e' :: (d :: ds' ++ rest)) = _
      simp only [scanExponent, takeSign_digits hds, htake, true_or, if_true]

/-! ## Taking a literal off a text -/

/-- What follows the sign of a literal is taken off as it was written. -/
theorem scanUnsigned_text {n : Numeral} (hn : n.WellFormed) {rest : List Char}
    (hrest : NoNumeral rest) : scanUnsigned n.negative (n.unsignedText rest) = .ok (n, rest) := by
  have hafter := noDigit_exponentText n.exponent hrest
  -- Neither an exponent nor what follows the literal starts with a point.
  have hpoint : ∀ c ∈ (exponentText n.exponent ++ rest).head?, c ≠ '.' := by
    rcases n.exponent with _ | ⟨_ | _, ds⟩
    · intro c hc
      exact (hrest c hc).2.1
    · intro c hc
      rw [← Option.some.inj hc]
      decide
    · intro c hc
      rw [← Option.some.inj hc]
      decide
  unfold scanUnsigned unsignedText
  rw [scanWhole_append hn.whole hn.leadingZero (noDigit_fractionText _ hafter)]
  simp only [bind, Except.bind]
  rw [scanFraction_append hn.fraction hafter hpoint]
  simp only [scanExponent_append hn.exponent hrest]
  rfl

/-- A literal does not start with a minus sign once its own is taken off. -/
private theorem unsignedText_ne_minus {n : Numeral} (hn : n.WellFormed) (rest cs : List Char) :
    n.unsignedText rest ≠ '-' :: cs := by
  obtain ⟨d, ds, h⟩ := List.exists_cons_of_ne_nil hn.whole.nonempty
  have hd : isDigit d = true := hn.whole.digits d (by rw [h]; exact List.mem_cons_self)
  unfold unsignedText
  rw [h]
  intro heq
  rw [(List.cons.inj heq).1] at hd
  exact absurd hd (by decide)

/-- A literal is taken off a text as it was written. -/
theorem scan_text {n : Numeral} (hn : n.WellFormed) {rest : List Char} (hrest : NoNumeral rest) :
    scan (n.text.toList ++ rest) = .ok (n, rest) := by
  have hunsigned := scanUnsigned_text hn hrest
  rw [toList_text_append]
  -- The sign is looked at first, and the parts behind it are the same with and without it.
  cases hnegative : n.negative with
  | true =>
    rw [hnegative] at hunsigned
    exact hunsigned
  | false =>
    rw [hnegative] at hunsigned
    rw [if_neg Bool.false_ne_true]
    unfold scan
    split
    next cs heq => exact absurd heq (unsignedText_ne_minus hn rest cs)
    next => exact hunsigned

/-- The text of a literal starts with a minus sign or a digit. -/
theorem toList_text_eq_cons {n : Numeral} (hn : n.WellFormed) :
    ∃ c cs, n.text.toList = c :: cs ∧ (c = '-' ∨ isDigit c = true) := by
  have htext := toList_text_append n []
  rw [List.append_nil] at htext
  rw [htext]
  obtain ⟨d, ds, h⟩ := List.exists_cons_of_ne_nil hn.whole.nonempty
  have hd : isDigit d = true := hn.whole.digits d (by rw [h]; exact List.mem_cons_self)
  cases n.negative with
  | true => exact ⟨'-', _, rfl, Or.inl rfl⟩
  | false =>
    rw [if_neg Bool.false_ne_true, unsignedText, h]
    exact ⟨d, _, rfl, Or.inr hd⟩

/-! ## Integers -/

/-- The digits of a number start with a zero only if the number is zero. -/
private theorem digits_eq_zero_of_head? {n : Nat} (h : (digits n).head? = some '0') :
    digits n = ['0'] := by
  induction n using Nat.strongRecOn with
  | ind n ih =>
    unfold digits at h ih ⊢
    by_cases hn : n < 10
    · rw [Nat.toDigits_of_lt_base hn] at h ⊢
      rw [Option.some.inj h]
    · -- The last digit is not the first one, and what comes before it is not zero.
      rw [Nat.toDigits_of_base_le (by decide) (Nat.le_of_not_lt hn)] at h
      have hfirst : (Nat.toDigits 10 (n / 10)).head? = some '0' := by
        obtain ⟨d, ds, hcons⟩ := List.exists_cons_of_ne_nil (@Nat.toDigits_ne_nil (n / 10) 10)
        rw [hcons] at h ⊢
        exact h
      have hvalue : Nat.ofDigitChars 10 (Nat.toDigits 10 (n / 10)) 0 = n / 10 :=
        Nat.ofDigitChars_ten_toDigits
      rw [ih (n / 10) (by omega) hfirst] at hvalue
      have hzero : (0 : Nat) = n / 10 := hvalue
      omega

/-- The digits of a number are at least one. -/
theorem digitRun_digits (n : Nat) : DigitRun (digits n) :=
  ⟨Nat.toDigits_ne_nil, fun _ hc => isDigit_of_mem_digits hc⟩

/-- The literal of an integer has digits only. -/
theorem wellFormed_ofInt (i : Int) : (ofInt i).WellFormed where
  whole := digitRun_digits i.natAbs
  leadingZero := digits_eq_zero_of_head?
  fraction := by
    intro ds hds
    cases hds
  exponent := by
    intro x hx
    cases hx

/-- The literal of an integer is the integer as it is written everywhere. -/
theorem text_ofInt (i : Int) : (ofInt i).text = decimal i := by
  cases i with
  | ofNat n => simp [ofInt, text, decimal]
  | negSucc n => simp [ofInt, text, decimal, Int.negSucc_lt_zero]

/-- The literal of an integer stands for it as long as 64 bits are enough. -/
theorem number?_ofInt {i : Int} (hlower : -9223372036854775808 ≤ i)
    (hupper : i ≤ 18446744073709551615) :
    (ofInt i).number? =
      some (if i < 0 then .negative i else .natural i.natAbs) := by
  have hwhole : ofDigits (ofInt i).whole = i.natAbs := ofDigits_digits i.natAbs
  unfold number?
  rw [hwhole]
  by_cases hi : i < 0
  · -- A negative number has to fit 64 bits with its sign.
    have habs : 0 < i.natAbs ∧ i.natAbs ≤ Nat.pow 2 63 := by
      show 0 < i.natAbs ∧ i.natAbs ≤ 9223372036854775808
      omega
    have hvalue : -(i.natAbs : Int) = i := by omega
    simp only [ofInt, hi, decide_true, if_true, Option.isSome_none, Bool.or_self, habs.1, habs.2,
      Bool.and_self, hvalue, Bool.false_eq_true, if_false]
  · -- Any other number can use all of them.
    have habs : i.natAbs ≤ significandLimit := by
      show i.natAbs ≤ 18446744073709551615
      omega
    simp only [ofInt, hi, decide_false, if_false, Option.isSome_none, Bool.or_self,
      Bool.false_eq_true, habs, if_true]

end Numeral
end Reckoner.Json
