import Mathlib.Data.List.TakeWhile
import Reckoner.Decimal.Shortest
import Reckoner.Proofs.Text.Integer

/-!
# Values are read back

The value of a sample is a decimal without an exponent, or one of the values of a double that are no
numbers.  Counts are written in digits (`read?_digits`), and a sum of durations as the shortest
decimal of a double, with a point if it is not whole (`read?_positional`).  Either way the decimal
that was written is read, whatever the double was, and no text that is read has a line end in it
(`lineEnd_notMem_of_read?`).
-/

namespace Reckoner.Metrics

/-- What a value can be.  A decimal is a natural number with some places behind the point. -/
inductive Quantity where
  | nan
  | infinite (negative : Bool)
  | decimal (negative : Bool) (mantissa places : Nat)
  deriving DecidableEq

namespace Quantity

/-! ## Quantities of numbers -/

def ofCount (n : Nat) : Quantity := .decimal false n 0

/-- The count that a quantity is, if it is one. -/
def count? : Quantity → Option Nat
  | .decimal false n 0 => some n
  | _ => none

/-- A count is read off as it is. -/
theorem count?_ofCount (n : Nat) : (ofCount n).count? = some n := rfl

/-- A shortest decimal: places that are not behind the point are filled with zeros. -/
def ofShortest (negative : Bool) (s : Shortest) : Quantity :=
  .decimal negative (ofDigits s.figures * Nat.pow 10 (s.point - s.figures.length).toNat)
    (s.figures.length - s.point).toNat

/-- What is shown of a double. -/
def ofFloat (x : Float) : Quantity :=
  match Double.ofFloat x with
  | .nan => .nan
  | .infinite negative => .infinite negative
  | .zero negative => .decimal negative 0 0
  | .finite negative r => ofShortest negative (r.shortest .greater)

/-! ## Reading -/

/-- Reads what stands behind the sign. -/
def unsigned? (negative : Bool) (cs : List Char) : Option Quantity :=
  match cs.takeWhile isDigit, cs.dropWhile isDigit with
  | [], rest => if rest = ['i', 'n', 'f'] then some (.infinite negative) else none
  | whole, [] => some (.decimal negative (ofDigits whole) 0)
  | whole, c :: fraction =>
    if c = '.' ∧ fraction.all isDigit then
      some (.decimal negative (ofDigits (whole ++ fraction)) fraction.length)
    else none

/-- Reads a value. -/
def read? (cs : List Char) : Option Quantity :=
  if cs = ['N', 'a', 'N'] then some .nan
  else if cs.head? = some '-' then unsigned? true cs.tail
  else unsigned? false cs

/-! ### Digits -/

/-- Zeros that fill places are digits. -/
theorem isDigit_zero : isDigit '0' = true := by decide

/-- Digits without a point are a whole number. -/
theorem unsigned?_whole (negative : Bool) {cs : List Char} (hne : cs ≠ [])
    (hdigits : ∀ c ∈ cs, isDigit c = true) :
    unsigned? negative cs = some (.decimal negative (ofDigits cs) 0) := by
  have htake : cs.takeWhile isDigit = cs := by
    rw [← List.append_nil cs, List.takeWhile_append_of_pos hdigits, List.takeWhile_nil]
  have hdrop : cs.dropWhile isDigit = [] := by
    rw [← List.append_nil cs, List.dropWhile_append_of_pos hdigits, List.dropWhile_nil]
  -- With at least one digit it is not taken for a word.
  obtain ⟨c, cs, rfl⟩ := List.exists_cons_of_ne_nil hne
  rw [unsigned?, htake, hdrop]

/-- Digits behind the point are places. -/
theorem unsigned?_fraction (negative : Bool) {whole fraction : List Char} (hne : whole ≠ [])
    (hwhole : ∀ c ∈ whole, isDigit c = true) (hfraction : ∀ c ∈ fraction, isDigit c = true) :
    unsigned? negative (whole ++ '.' :: fraction) =
      some (.decimal negative (ofDigits (whole ++ fraction)) fraction.length) := by
  -- The digits in front end at the point.
  have hpoint : ¬isDigit '.' = true := by decide
  have htake : (whole ++ '.' :: fraction).takeWhile isDigit = whole := by
    rw [List.takeWhile_append_of_pos hwhole, List.takeWhile_cons_of_neg hpoint, List.append_nil]
  have hdrop : (whole ++ '.' :: fraction).dropWhile isDigit = '.' :: fraction := by
    rw [List.dropWhile_append_of_pos hwhole, List.dropWhile_cons_of_neg hpoint]
  obtain ⟨c, whole, rfl⟩ := List.exists_cons_of_ne_nil hne
  rw [unsigned?, htake, hdrop]
  exact if_pos ⟨rfl, List.all_eq_true.mpr hfraction⟩

/-- A text that starts with a digit has no sign. -/
theorem read?_cons {c : Char} (hc : isDigit c = true) (cs : List Char) :
    read? (c :: cs) = unsigned? false (c :: cs) := by
  have hletter : c :: cs ≠ ['N', 'a', 'N'] := by
    intro h
    rw [(List.cons.inj h).1] at hc
    exact absurd hc (by decide)
  have hminus : (c :: cs).head? ≠ some '-' := by
    intro h
    rw [Option.some.inj h] at hc
    exact absurd hc (by decide)
  rw [read?, if_neg hletter, if_neg hminus]

/-- A text that starts with a digit, and what is read of it behind either sign. -/
structure Unsigned (cs : List Char) (q : Bool → Quantity) : Prop where
  starts : ∃ c rest, cs = c :: rest ∧ isDigit c = true
  reads : ∀ negative, unsigned? negative cs = some (q negative)

/-- With its sign a text is read as the quantity with this sign. -/
theorem Unsigned.withSign {text : String} {q : Bool → Quantity} (h : Unsigned text.toList q)
    (negative : Bool) : read? (withSign negative text).toList = some (q negative) := by
  obtain ⟨c, rest, htext, hc⟩ := h.starts
  cases negative with
  -- Without a minus it is read from its first digit on.
  | false =>
    rw [Reckoner.withSign, if_neg Bool.false_ne_true, htext, read?_cons hc, ← htext, h.reads]
  | true =>
    have hsigned : (Reckoner.withSign true text).toList = '-' :: text.toList := by
      rw [Reckoner.withSign, if_pos rfl, String.toList_append]
      rfl
    rw [hsigned, read?, if_neg (by simp), List.head?_cons, if_pos rfl, List.tail_cons, h.reads]

/-- A count is read as it was written. -/
theorem read?_digits (n : Nat) : read? (digits n) = some (ofCount n) := by
  have hall : ∀ c ∈ digits n, isDigit c = true := fun c hc => isDigit_of_mem_digits hc
  obtain ⟨d, ds, hdigits, hd⟩ := digits_eq_cons n
  rw [hdigits, read?_cons hd, ← hdigits, unsigned?_whole false (by simp [hdigits]) hall,
    ofDigits_digits]
  rfl

/-! ### Shortest decimals -/

/-- Zeros behind digits multiply the number. -/
theorem ofDigits_append_zeros (cs : List Char) (n : Nat) :
    ofDigits (cs ++ Shortest.zeros n) = ofDigits cs * Nat.pow 10 n := by
  rw [ofDigits, Nat.ofDigitChars_append, Shortest.zeros, Nat.ofDigitChars_replicate_zero,
    Nat.mul_comm]
  rfl

/-- Zeros in front of digits do not change it. -/
theorem ofDigits_zeros_append (n : Nat) (cs : List Char) :
    ofDigits (Shortest.zeros n ++ cs) = ofDigits cs := by
  rw [ofDigits, Nat.ofDigitChars_append, Shortest.zeros, Nat.ofDigitChars_replicate_zero,
    Nat.mul_zero]
  rfl

/-- Zeros are digits. -/
theorem isDigit_of_mem_zeros {n : Nat} {c : Char} (h : c ∈ Shortest.zeros n) :
    isDigit c = true := by
  rw [List.eq_of_mem_replicate h]
  exact isDigit_zero

/-- The figures of a shortest decimal are digits. -/
theorem isDigit_of_mem_shortest {r : Rounding} {tie : Tie} {c : Char}
    (h : c ∈ (r.shortest tie).figures) : isDigit c = true := by
  -- Zeros are dropped at the end, and what is left are digits of a natural number.
  have hsub := (List.dropWhile_sublist (· == '0')).subset (List.mem_reverse.mp h)
  exact isDigit_of_mem_digits (List.mem_reverse.mp hsub)

section

variable {s : Shortest} (hs : ∀ c ∈ s.figures, isDigit c = true)

include hs

/-- All figures stand behind the point, and zeros in front of them. -/
theorem unsigned_of_point_le_zero (hlow : s.point ≤ 0) :
    Unsigned (s.plain "").toList (ofShortest · s) := by
  have htext : (s.plain "").toList =
      ['0'] ++ '.' :: (Shortest.zeros (-s.point).toNat ++ s.figures) := by
    rw [Shortest.plain]
    simp only [if_pos hlow, String.toList_append, String.toList_ofList]
    rfl
  refine ⟨⟨'0', _, htext, isDigit_zero⟩, ?_⟩
  intro negative
  have hbehind : ∀ c ∈ Shortest.zeros (-s.point).toNat ++ s.figures, isDigit c = true := by
    intro c hc
    exact (List.mem_append.mp hc).elim isDigit_of_mem_zeros (hs c)
  rw [htext, unsigned?_fraction negative (by simp) (by simp [isDigit_zero]) hbehind]
  -- Zeros in front do not change the number, but they are places.
  have hvalue : ofDigits (['0'] ++ (Shortest.zeros (-s.point).toNat ++ s.figures)) =
      ofDigits s.figures := by
    rw [← List.append_assoc]
    exact ofDigits_zeros_append ((-s.point).toNat + 1) s.figures
  have hplaces : (Shortest.zeros (-s.point).toNat ++ s.figures).length =
      (s.figures.length - s.point).toNat := by
    simp only [Shortest.zeros, List.length_append, List.length_replicate]
    omega
  have hnone : (s.point - s.figures.length).toNat = 0 := by omega
  rw [hvalue, hplaces, ofShortest, hnone]
  simp

/-- The point stands between the figures. -/
theorem unsigned_of_point_lt_length (hlow : ¬s.point ≤ 0) (hinside : s.point < s.figures.length) :
    Unsigned (s.plain "").toList (ofShortest · s) := by
  have htext : (s.plain "").toList =
      s.figures.take s.point.toNat ++ '.' :: s.figures.drop s.point.toNat := by
    rw [Shortest.plain]
    simp only [if_neg hlow, if_pos hinside, String.toList_append, String.toList_ofList,
      List.append_assoc]
    rfl
  have hwhole : ∀ c ∈ s.figures.take s.point.toNat, isDigit c = true :=
    fun c hc => hs c (List.mem_of_mem_take hc)
  have hne : s.figures.take s.point.toNat ≠ [] := by
    intro h
    have hlength := congrArg List.length h
    rw [List.length_take, List.length_nil] at hlength
    omega
  obtain ⟨c, cs, hcons⟩ := List.exists_cons_of_ne_nil hne
  refine ⟨⟨c, cs ++ '.' :: s.figures.drop s.point.toNat, ?_, ?_⟩, ?_⟩
  · rw [htext, hcons, List.cons_append]
  · exact hwhole c (hcons ▸ List.mem_cons_self)
  · intro negative
    have hplaces : (s.figures.drop s.point.toNat).length = (s.figures.length - s.point).toNat := by
      rw [List.length_drop]
      omega
    have hnone : (s.point - s.figures.length).toNat = 0 := by omega
    rw [htext, unsigned?_fraction negative hne hwhole fun c hc => hs c (List.mem_of_mem_drop hc),
      List.take_append_drop, hplaces, ofShortest, hnone]
    simp

/-- The number is whole, and zeros lead up to where the point would be. -/
theorem unsigned_of_length_le_point (hlow : ¬s.point ≤ 0)
    (hinside : ¬s.point < s.figures.length) :
    Unsigned (s.plain "").toList (ofShortest · s) := by
  have htext : (s.plain "").toList =
      s.figures ++ Shortest.zeros (s.point - s.figures.length).toNat := by
    have hcount : s.point.toNat - s.figures.length = (s.point - s.figures.length).toNat := by omega
    rw [Shortest.plain]
    simp only [if_neg hlow, if_neg hinside, hcount, String.append_empty, String.toList_ofList]
  have hall : ∀ c ∈ s.figures ++ Shortest.zeros (s.point - s.figures.length).toNat,
      isDigit c = true := by
    intro c hc
    exact (List.mem_append.mp hc).elim (hs c) isDigit_of_mem_zeros
  -- There may be no figures, but the point is behind at least one digit.
  have hne : s.figures ++ Shortest.zeros (s.point - s.figures.length).toNat ≠ [] := by
    intro h
    have hlength := congrArg List.length h
    simp only [Shortest.zeros, List.length_append, List.length_replicate, List.length_nil]
      at hlength
    omega
  rw [htext]
  obtain ⟨c, cs, hcons⟩ := List.exists_cons_of_ne_nil hne
  refine ⟨⟨c, cs, hcons, hall c (hcons ▸ List.mem_cons_self)⟩, ?_⟩
  intro negative
  have hplaces : (s.figures.length - s.point).toNat = 0 := by omega
  rw [unsigned?_whole negative hne hall, ofDigits_append_zeros, ofShortest, hplaces]

/-- A shortest decimal is read with its places, wherever the point stands. -/
theorem unsigned_plain : Unsigned (s.plain "").toList (ofShortest · s) := by
  by_cases hlow : s.point ≤ 0
  · exact unsigned_of_point_le_zero hs hlow
  · by_cases hinside : s.point < s.figures.length
    · exact unsigned_of_point_lt_length hs hlow hinside
    · exact unsigned_of_length_le_point hs hlow hinside

end

/-- A double is read as what is shown of it. -/
theorem read?_positional (x : Float) : read? (positional x).toList = some (ofFloat x) := by
  unfold positional ofFloat
  cases Double.ofFloat x with
  -- What is no number is one of three words, and a zero is a digit.
  | nan => rfl
  | infinite negative => cases negative <;> rfl
  | zero negative => cases negative <;> rfl
  | finite negative r =>
    have hfigures : ∀ c ∈ (r.shortest .greater).figures, isDigit c = true :=
      fun c hc => isDigit_of_mem_shortest hc
    exact (unsigned_plain hfigures).withSign negative

/-! ### Lines -/

/-- What is read behind a sign stands on one line. -/
theorem lineEnd_notMem_of_unsigned? {negative : Bool} {cs : List Char} {q : Quantity}
    (h : unsigned? negative cs = some q) : '\n' ∉ cs := by
  -- A line end is no digit.
  have hwhole : '\n' ∉ cs.takeWhile isDigit := by
    intro hmem
    exact absurd (List.mem_takeWhile_imp hmem) (by decide : ¬isDigit '\n' = true)
  rw [← List.takeWhile_append_dropWhile (p := isDigit) (l := cs), List.mem_append, not_or]
  refine ⟨hwhole, ?_⟩
  unfold unsigned? at h
  split at h
  next =>
    -- What is no number is one word.
    split at h
    next hword => rw [hword]; decide
    next => cases h
  next hdrop _ => rw [hdrop]; exact List.not_mem_nil
  next hdrop _ =>
    -- A point is followed by digits.
    split at h
    next hfraction =>
      rw [hdrop, hfraction.1, List.mem_cons, not_or]
      refine ⟨by decide, ?_⟩
      intro hmem
      exact absurd (List.all_eq_true.mp hfraction.2 _ hmem) (by decide)
    next => cases h

/-- What can be read stands on one line. -/
theorem lineEnd_notMem_of_read? {cs : List Char} {q : Quantity} (h : read? cs = some q) :
    '\n' ∉ cs := by
  unfold read? at h
  split at h
  next hword => rw [hword]; decide
  next =>
    split at h
    -- The sign is no line end, and what stands behind it has none.
    next hminus =>
      obtain ⟨rest, rfl⟩ := List.head?_eq_some_iff.mp hminus
      rw [List.mem_cons, not_or]
      exact ⟨by decide, lineEnd_notMem_of_unsigned? h⟩
    next => exact lineEnd_notMem_of_unsigned? h

end Quantity

end Reckoner.Metrics
