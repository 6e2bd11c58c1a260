import Reckoner.Json.Text

/-!
# Text literals are read back

Whatever a text contains, its literal is read back as this text, with whatever follows the literal
left over (`scanText_literal`).  Reading goes on after each character as if the character had been
pushed onto what has been read before (`scanText_escapedChar`): one letter after a backslash, four
hexadecimal digits and the character itself come to the same.
-/

namespace Reckoner.Json

/-- The characters of a text between quotes, escaped. -/
def literal (text : String) : List Char := '"' :: (text.toList.flatMap escapedChar ++ ['"'])

/-! ## Writing -/

private theorem toList_foldl_push (cs : List Char) (out : String) :
    (cs.foldl String.push out).toList = out.toList ++ cs := by
  induction cs generalizing out with
  | nil => simp
  | cons c cs ih =>
    rw [List.foldl_cons, ih, String.toList_push, List.append_assoc]
    rfl

private theorem toList_foldl_escapedChar (cs : List Char) (out : String) :
    (cs.foldl (fun out c => (escapedChar c).foldl String.push out) out).toList =
      out.toList ++ cs.flatMap escapedChar := by
  induction cs generalizing out with
  | nil => simp
  | cons c cs ih =>
    rw [List.foldl_cons, ih, toList_foldl_push, List.append_assoc, List.flatMap_cons]

theorem toList_writeText (out text : String) :
    (writeText out text).toList = out.toList ++ literal text := by
  unfold writeText literal
  rw [String.toList_push, toList_foldl_escapedChar, String.toList_push]
  simp

/-! ## Hexadecimal digits -/

theorem hexDigit?_digitChar : ∀ n < 16, hexDigit? (Nat.digitChar n) = some n := by decide

/-- Four hexadecimal digits stand for the number they were made of. -/
theorem hexNumber?_fourHexDigits {n : Nat} (hn : n < 65536) :
    hexNumber? (Nat.digitChar (n / 4096 % 16)) (Nat.digitChar (n / 256 % 16))
      (Nat.digitChar (n / 16 % 16)) (Nat.digitChar (n % 16)) = some n := by
  have hdigit : ∀ k, hexDigit? (Nat.digitChar (k % 16)) = some (k % 16) := by
    intro k
    exact hexDigit?_digitChar _ (Nat.mod_lt k (by decide))
  have hvalue : ((n / 4096 % 16 * 16 + n / 256 % 16) * 16 + n / 16 % 16) * 16 + n % 16 = n := by
    omega
  simp [hexNumber?, hdigit, hvalue]

namespace Spelling

/-- A unit outside the range of the surrogates is a character. -/
theorem pushUnit_of_lt (s : Spelling) {unit : Nat} (h : unit < 0xD800) :
    s.pushUnit unit = s.push (Char.ofNat unit) := by
  have hsecond : ¬ (0xDC00 ≤ unit ∧ unit ≤ 0xDFFF) := by omega
  have hfirst : ¬ (0xD800 ≤ unit ∧ unit ≤ 0xDBFF) := by omega
  unfold pushUnit
  rw [if_neg hsecond, if_neg hfirst]

/-- Without a half pair in it, what has been read is the text of the characters. -/
theorem finish_foldl_push (cs : List Char) (text : String) :
    (cs.foldl push ⟨text, true, none⟩).finish = some (text ++ String.ofList cs) := by
  induction cs generalizing text with
  | nil => simp [finish]
  | cons c cs ih =>
    have hpush : push ⟨text, true, none⟩ c = ⟨text.push c, true, none⟩ := rfl
    rw [List.foldl_cons, hpush, ih, String.ofList_cons, ← String.append_assoc]
    rfl

end Spelling

/-! ## Reading -/

theorem scanText_quote (s : Spelling) (rest : List Char) :
    scanText s ('"' :: rest) = .ok (s.finish, rest) := by
  rw [scanText.eq_def]
  simp

/-- A character that needs no escape stands for itself. -/
theorem scanText_plain (s : Spelling) {c : Char} (hquote : c ≠ '"') (hbackslash : c ≠ '\\')
    (hcontrol : ¬ c.toNat < 0x20) (rest : List Char) :
    scanText s (c :: rest) = scanText (s.push c) rest := by
  rw [scanText.eq_def]
  simp [hquote, hbackslash, hcontrol]

/-- A backslash and one letter stand for a character. -/
theorem scanText_short (s : Spelling) {e c : Char} (hu : e ≠ 'u') (he : shortEscape? e = some c)
    (rest : List Char) : scanText s ('\\' :: e :: rest) = scanText (s.push c) rest := by
  rw [scanText.eq_def]
  simp [hu, he]

/-- Four hexadecimal digits stand for a unit. -/
theorem scanText_unit (s : Spelling) {a b c d : Char} {unit : Nat}
    (h : hexNumber? a b c d = some unit) (rest : List Char) :
    scanText s ('\\' :: 'u' :: a :: b :: c :: d :: rest) = scanText (s.pushUnit unit) rest := by
  rw [scanText]
  simp [h]

/-- However a character is written, reading goes on with the character pushed. -/
theorem scanText_escapedChar (s : Spelling) (c : Char) (rest : List Char) :
    scanText s (escapedChar c ++ rest) = scanText (s.push c) rest := by
  unfold escapedChar
  -- The cases are those of writing: seven letters, the control characters and all others.
  iterate 7
    split
    next h =>
      subst h
      exact scanText_short s (by decide) rfl rest
  split
  -- A control character is below the surrogates.
  next hcontrol =>
    have hnumber := hexNumber?_fourHexDigits (n := c.toNat) (by omega)
    have hunit : s.pushUnit c.toNat = s.push c := by
      rw [Spelling.pushUnit_of_lt s (by omega), Char.ofNat_toNat]
    rw [← hunit]
    exact scanText_unit s hnumber rest
  next hquote hbackslash _ _ _ _ _ hcontrol =>
    exact scanText_plain s hquote hbackslash hcontrol rest

theorem scanText_flatMap_escapedChar (s : Spelling) (cs rest : List Char) :
    scanText s (cs.flatMap escapedChar ++ '"' :: rest) =
      .ok ((cs.foldl Spelling.push s).finish, rest) := by
  induction cs generalizing s with
  | nil => exact scanText_quote s rest
  | cons c cs ih =>
    rw [List.flatMap_cons, List.append_assoc, scanText_escapedChar, ih, List.foldl_cons]

/-- A literal is read back as its text, after the opening quote. -/
theorem scanText_literal (text : String) (rest : List Char) :
    scanText {} (text.toList.flatMap escapedChar ++ '"' :: rest) = .ok (some text, rest) := by
  rw [scanText_flatMap_escapedChar, Spelling.finish_foldl_push, String.ofList_toList]
  simp

/-- So a literal can be read off the front of a text in one way only. -/
theorem literal_append_inj {text text' : String} {rest rest' : List Char}
    (h : literal text ++ rest = literal text' ++ rest') : text = text' ∧ rest = rest' := by
  simp only [literal, List.cons_append, List.append_assoc, List.nil_append, List.cons.injEq,
    true_and] at h
  -- Both literals are read from the same text.
  have hscan := scanText_literal text rest
  rw [h, scanText_literal text' rest'] at hscan
  simpa [eq_comm] using hscan

end Reckoner.Json
