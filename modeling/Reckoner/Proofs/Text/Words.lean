import Reckoner.Text.Blank

/-!
# Words of a text

Two texts one after the other have the words of the one and then those of the other, if the second
one starts with a blank (`words_append`); otherwise a word may run across the place where they meet.
Normalising writes every word with one space in front of it and drops the first space
(`toList_normalize`).

Normalising reads the text once, so that it does not know a word before its end.  What it still has
to write in the middle of a word is `continued`: the rest of this word, and then the words behind
it.
-/

namespace Reckoner

/-- Words with a single space in front of each. -/
def gapped (ws : List (List Char)) : List Char := ws.flatMap (' ' :: ·)

theorem gapped_append (ws ws' : List (List Char)) : gapped (ws ++ ws') = gapped ws ++ gapped ws' :=
  List.flatMap_append

/-- Whether a text does not start with a character of a word. -/
def NoWord (cs : List Char) : Prop := ∀ c ∈ cs.head?, isBlank c = true

theorem noWord_nil : NoWord [] := by
  intro c hc
  cases hc

theorem noWord_cons {c : Char} {cs : List Char} (hc : isBlank c = true) : NoWord (c :: cs) := by
  intro d hd
  rw [← Option.some.inj hd]
  exact hc

/-! ## Words character by character -/

theorem words_cons_of_blank {c : Char} (hc : isBlank c = true) (cs : List Char) :
    words (c :: cs) = words cs := by
  simp [words, hc]

/-- A character with no word behind it is a word by itself. -/
theorem words_cons_of_noWord {c : Char} (hc : isBlank c = false) {cs : List Char}
    (hcs : NoWord cs) : words (c :: cs) = [c] :: words cs := by
  cases cs with
  | nil => simp [words, hc]
  | cons d ds =>
    have hd : isBlank d = true := hcs d rfl
    rw [words.eq_def]
    dsimp only
    -- The words behind it are the same, whether there are any or not.
    cases words (d :: ds) <;> simp [hc, hd]

/-- A character that is not blank starts a word. -/
theorem exists_words_cons {c : Char} (hc : isBlank c = false) (cs : List Char) :
    ∃ w ws, words (c :: cs) = w :: ws := by
  cases cs with
  | nil => exact ⟨[c], [], words_cons_of_noWord hc noWord_nil⟩
  | cons d ds =>
    cases hd : isBlank d with
    | true => exact ⟨[c], _, words_cons_of_noWord hc (noWord_cons hd)⟩
    | false =>
      rw [words.eq_def]
      dsimp only
      cases words (d :: ds) <;> simp [hc, hd]

/-- A character joins the word behind it. -/
theorem words_cons_cons {c d : Char} (hc : isBlank c = false) (hd : isBlank d = false)
    {ds : List Char} {w : List Char} {ws : List (List Char)} (h : words (d :: ds) = w :: ws) :
    words (c :: d :: ds) = (c :: w) :: ws := by
  rw [words.eq_def]
  simp [hc, hd, h]

/-! ## Words of joined texts -/

theorem words_append (cs : List Char) {ds : List Char} (hds : NoWord ds) :
    words (cs ++ ds) = words cs ++ words ds := by
  induction cs with
  | nil => rfl
  | cons c cs ih =>
    rw [List.cons_append]
    cases hc : isBlank c with
    | true => rw [words_cons_of_blank hc, words_cons_of_blank hc, ih]
    | false =>
      -- The character may be the last one of the first text.
      cases cs with
      | nil =>
        rw [List.nil_append, words_cons_of_noWord hc hds, words_cons_of_noWord hc noWord_nil]
        rfl
      | cons d cs =>
        rw [List.cons_append] at ih ⊢
        cases hd : isBlank d with
        | true =>
          rw [words_cons_of_noWord hc (noWord_cons hd), words_cons_of_noWord hc (noWord_cons hd),
            ih]
          rfl
        | false =>
          -- The character joins the first word of the first text in both.
          obtain ⟨w, ws, h⟩ := exists_words_cons hd cs
          rw [h, List.cons_append] at ih
          rw [words_cons_cons hc hd ih, words_cons_cons hc hd h]
          rfl

/-- Characters without a blank among them are one word. -/
theorem words_word {w : List Char} (hne : w ≠ []) (hw : ∀ c ∈ w, isBlank c = false) :
    words w = [w] := by
  induction w with
  | nil => exact absurd rfl hne
  | cons c cs ih =>
    have hc := hw c List.mem_cons_self
    cases cs with
    | nil => exact words_cons_of_noWord hc noWord_nil
    | cons d ds =>
      have hrest := ih (List.cons_ne_nil d ds) fun e he => hw e (List.mem_cons_of_mem c he)
      exact words_cons_cons hc (hw d (by simp)) hrest

/-! ## Normalising -/

/-- What remains to be written behind a character of a word: the rest of the word, and the words
behind it. -/
def continued : List Char → List Char
  | [] => []
  | c :: cs => if isBlank c then gapped (words cs) else (gapped (words (c :: cs))).tail

theorem gapped_words_cons {c : Char} (hc : isBlank c = false) (cs : List Char) :
    gapped (words (c :: cs)) = ' ' :: c :: continued cs := by
  cases cs with
  | nil =>
    rw [words_cons_of_noWord hc noWord_nil]
    rfl
  | cons d ds =>
    -- The word ends here or goes on with the next character.
    cases hd : isBlank d with
    | true =>
      rw [words_cons_of_noWord hc (noWord_cons hd), words_cons_of_blank hd]
      simp [gapped, continued, hd]
    | false =>
      obtain ⟨w, ws, h⟩ := exists_words_cons hd ds
      rw [words_cons_cons hc hd h]
      simp [gapped, continued, hd, h]

/-- What is written behind other text: if the last word is complete, all words with a space in
front of each, and otherwise first what belongs to this word. -/
theorem toList_appendWords {out : String} (hout : out ≠ "") (gap : Bool) (cs : List Char) :
    (appendWords out gap cs).toList =
      out.toList ++ if gap then gapped (words cs) else continued cs := by
  induction cs generalizing out gap with
  | nil => cases gap <;> simp [appendWords, words, gapped, continued]
  | cons c cs ih =>
    rw [appendWords]
    cases hc : isBlank c with
    | true =>
      -- There is a word before the blank, and it ends here.
      have hgap : (!out.isEmpty) = true := by simp [hout]
      rw [if_pos rfl, hgap, ih hout]
      cases gap <;> simp [words_cons_of_blank hc, continued, hc]
    | false =>
      rw [if_neg Bool.false_ne_true, ih (by simp)]
      -- A space is written in front of a new word only.
      cases gap with
      | true => simp [gapped_words_cons hc]
      | false => simp [continued, hc, gapped_words_cons hc]

/-- The words of a text are written with one space in front of each but the first. -/
theorem toList_normalize (text : String) :
    (normalize text).toList = (gapped (words text.toList)).tail := by
  unfold normalize
  induction text.toList with
  | nil => rfl
  | cons c cs ih =>
    rw [appendWords]
    cases hc : isBlank c with
    | true =>
      -- Blanks at the start leave nothing behind.
      rw [if_pos rfl, words_cons_of_blank hc]
      exact ih
    | false =>
      rw [if_neg Bool.false_ne_true, toList_appendWords (by simp), gapped_words_cons hc]
      simp

end Reckoner
