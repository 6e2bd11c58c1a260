import Reckoner.Text.Integer

/-!
# Integers at the front of a text

Digits do not end by themselves: `2` and `23` start alike.  An integer can be read off the front of
a text if the text does not go on with a digit behind it (`decimal32_append_inj`), and it starts
with a digit, or with a minus sign and a digit (`toList_decimal`).
-/

namespace Reckoner

/-- Whether a text does not start with a digit. -/
def NoDigit (cs : List Char) : Prop := ∀ c ∈ cs.head?, isDigit c = false

theorem noDigit_nil : NoDigit [] := by
  intro c hc
  cases hc

theorem noDigit_cons {c : Char} {cs : List Char} (hc : isDigit c = false) : NoDigit (c :: cs) := by
  intro d hd
  rw [← Option.some.inj hd]
  exact hc

/-! ## Digits -/

theorem digits_eq_cons (n : Nat) : ∃ d ds, digits n = d :: ds ∧ isDigit d = true := by
  cases h : digits n with
  | nil => exact absurd h Nat.toDigits_ne_nil
  | cons d ds =>
    refine ⟨d, ds, rfl, isDigit_of_mem_digits (n := n) ?_⟩
    rw [h]
    exact List.mem_cons_self

/-- The digits of a number are all digits at the front of a text, if none follows them. -/
theorem takeWhile_digits_append (n : Nat) {rest : List Char} (hrest : NoDigit rest) :
    (digits n ++ rest).takeWhile isDigit = digits n := by
  rw [List.takeWhile_append_of_pos fun c hc => isDigit_of_mem_digits hc]
  cases rest with
  | nil => simp
  | cons c cs => simp [hrest c rfl]

theorem digits_append_inj {m n : Nat} {rest rest' : List Char} (hrest : NoDigit rest)
    (hrest' : NoDigit rest') (h : digits m ++ rest = digits n ++ rest') :
    m = n ∧ rest = rest' := by
  -- Both are the digits at the front of the same text.
  have hdigits : digits m = digits n := by
    rw [← takeWhile_digits_append m hrest, h, takeWhile_digits_append n hrest']
  have hvalue : m = n := by
    rw [← ofDigits_digits m, hdigits, ofDigits_digits]
  rw [hdigits] at h
  exact ⟨hvalue, List.append_cancel_left h⟩

/-! ## Signed integers -/

/-- An integer is written as a digit and more, or as a minus sign, a digit and more. -/
theorem toList_decimal (i : Int) : ∃ d ds, isDigit d = true ∧
    ((decimal i).toList = d :: ds ∨ (decimal i).toList = '-' :: d :: ds) := by
  cases i with
  | ofNat n =>
    obtain ⟨d, ds, h, hd⟩ := digits_eq_cons n
    exact ⟨d, ds, hd, Or.inl (by rw [decimal, String.toList_ofList, h])⟩
  | negSucc n =>
    obtain ⟨d, ds, h, hd⟩ := digits_eq_cons (n + 1)
    exact ⟨d, ds, hd, Or.inr (by rw [decimal, String.toList_ofList, h])⟩

/-- An integer is written in digits, with a minus sign for a negative one. -/
theorem count_decimal (i : Int) {c : Char} (hc : isDigit c = false) :
    (decimal i).toList.count c = if c = '-' ∧ i < 0 then 1 else 0 := by
  have hdigits : ∀ n, (digits n).count c = 0 := by
    intro n
    rw [List.count_eq_zero]
    intro hmem
    rw [isDigit_of_mem_digits hmem] at hc
    cases hc
  cases i with
  | ofNat n => simp [decimal, hdigits]
  | negSucc n =>
    -- A minus sign comes first, and the rest are digits.
    rw [decimal, String.toList_ofList, List.count_cons, hdigits]
    simp [Int.negSucc_lt_zero, beq_iff_eq, eq_comm (a := '-')]

/-- The digits of a number do not start with a minus sign. -/
private theorem digits_append_ne_minus (n : Nat) (rest cs : List Char) :
    digits n ++ rest ≠ '-' :: cs := by
  intro h
  obtain ⟨d, ds, hdigits, hd⟩ := digits_eq_cons n
  rw [hdigits] at h
  rw [(List.cons.inj h).1] at hd
  exact absurd hd (by decide)

/-- An integer can be read off the front of a text that does not go on with a digit. -/
theorem decimal_append_inj {i j : Int} {rest rest' : List Char} (hrest : NoDigit rest)
    (hrest' : NoDigit rest') (h : (decimal i).toList ++ rest = (decimal j).toList ++ rest') :
    i = j ∧ rest = rest' := by
  -- The first character tells which of the two is negative.
  cases i with
  | ofNat m =>
    cases j with
    | ofNat n =>
      rw [decimal, decimal, String.toList_ofList, String.toList_ofList] at h
      obtain ⟨hvalue, heq⟩ := digits_append_inj hrest hrest' h
      exact ⟨congrArg Int.ofNat hvalue, heq⟩
    | negSucc n =>
      rw [decimal, decimal, String.toList_ofList, String.toList_ofList] at h
      exact absurd h (digits_append_ne_minus m rest _)
  | negSucc m =>
    cases j with
    | ofNat n =>
      rw [decimal, decimal, String.toList_ofList, String.toList_ofList] at h
      exact absurd h.symm (digits_append_ne_minus n rest' _)
    | negSucc n =>
      rw [decimal, decimal, String.toList_ofList, String.toList_ofList] at h
      obtain ⟨hvalue, heq⟩ := digits_append_inj hrest hrest' (List.cons.inj h).2
      exact ⟨congrArg Int.negSucc (Nat.succ.inj hvalue), heq⟩

theorem decimal32_append_inj {v w : Int32} {rest rest' : List Char} (hrest : NoDigit rest)
    (hrest' : NoDigit rest')
    (h : (decimal32 v).toList ++ rest = (decimal32 w).toList ++ rest') :
    v = w ∧ rest = rest' := by
  obtain ⟨hvalue, heq⟩ := decimal_append_inj hrest hrest' h
  exact ⟨Int32.toInt_inj.mp hvalue, heq⟩

theorem count_decimal32 (v : Int32) {c : Char} (hc : isDigit c = false) :
    (decimal32 v).toList.count c = if c = '-' ∧ v < 0 then 1 else 0 := by
  simp only [decimal32, count_decimal _ hc, Int32.lt_iff_toInt_lt, Int32.toInt_zero]

/-- An integer has no characters but digits and a minus sign. -/
theorem notMem_decimal32 {c : Char} (hdigit : isDigit c = false) (hminus : c ≠ '-') (v : Int32) :
    c ∉ (decimal32 v).toList := by
  rw [← List.count_eq_zero, count_decimal32 v hdigit, if_neg]
  rintro ⟨h, -⟩
  exact hminus h

end Reckoner
