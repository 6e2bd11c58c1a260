import Mathlib.Data.List.Chain
import Reckoner.Proofs.Text.Words

/-!
# Canonical texts

A text is canonical if its words are set off by single spaces, with nothing else around them.  Of
all texts with the same words there is one that is canonical, and normalising finds it
(`normalize_canonical`).

That `words` are the words of a text is said by `Worded`, which divides a text into words and blanks
and leaves no choice in doing so (`words_eq_iff`).  What normalising writes is canonical after every
character that it reads (`canonical_appendWords`); words written with single spaces between them are
read back as they were (`words_gapped`), and a canonical text is written as it was read
(`continued_of_canonical`).
-/

namespace Reckoner

/-! ## Division into words -/

/-- Characters without a blank among them, and at least one. -/
structure IsWord (w : List Char) : Prop where
  ne_nil : w ≠ []
  noBlank : ∀ c ∈ w, isBlank c = false

/-- Whether a text consists of given words and of blanks.  A word ends only where a blank follows
or nothing, so that it is as long as it can be. -/
inductive Worded : List (List Char) → List Char → Prop where
  | nil : Worded [] []
  | blank {c : Char} {cs : List Char} {ws : List (List Char)} :
      isBlank c = true → Worded ws cs → Worded ws (c :: cs)
  | word {w cs : List Char} {ws : List (List Char)} :
      IsWord w → NoWord cs → Worded ws cs → Worded (w :: ws) (w ++ cs)

/-- A character that is not blank lengthens the word right behind it. -/
theorem Worded.cons {c d : Char} (hc : isBlank c = false) (hd : isBlank d = false)
    {ds w : List Char} {ws : List (List Char)} (h : Worded (w :: ws) (d :: ds)) :
    Worded ((c :: w) :: ws) (c :: d :: ds) := by
  generalize hcs : d :: ds = cs at h ⊢
  cases h with
  -- The text does not start with a blank.
  | blank hblank _ =>
    rw [← (List.cons.inj hcs).1, hd] at hblank
    cases hblank
  | word hw hrest others =>
    have hcw : IsWord (c :: w) := by
      refine ⟨List.cons_ne_nil c w, ?_⟩
      intro e he
      rcases List.mem_cons.mp he with rfl | he
      · exact hc
      · exact hw.noBlank e he
    exact .word hcw hrest others

/-- A text can be divided into its words. -/
theorem worded_words (cs : List Char) : Worded (words cs) cs := by
  induction cs with
  | nil => exact .nil
  | cons c cs ih =>
    cases hc : isBlank c with
    | true =>
      rw [words_cons_of_blank hc]
      exact .blank hc ih
    | false =>
      -- A character that is not blank starts a word, or lengthens the one behind it.
      have hword : IsWord [c] := ⟨List.cons_ne_nil c [], by simp [hc]⟩
      cases cs with
      | nil =>
        rw [words_cons_of_noWord hc noWord_nil]
        exact .word hword noWord_nil ih
      | cons d ds =>
        cases hd : isBlank d with
        | true =>
          rw [words_cons_of_noWord hc (noWord_cons hd)]
          exact .word hword (noWord_cons hd) ih
        | false =>
          obtain ⟨w, ws, h⟩ := exists_words_cons hd ds
          rw [words_cons_cons hc hd h]
          rw [h] at ih
          exact ih.cons hc hd

/-- There is one way of dividing a text into words. -/
theorem words_eq_iff {cs : List Char} {ws : List (List Char)} : words cs = ws ↔ Worded ws cs := by
  constructor
  · intro h
    rw [← h]
    exact worded_words cs
  · -- Each rule of the division is an equation of `words`.
    intro h
    induction h with
    | nil => rfl
    | blank hblank _ ih => rw [words_cons_of_blank hblank, ih]
    | word hw hrest _ ih =>
      rw [words_append _ hrest, words_word hw.ne_nil hw.noBlank, ih]
      rfl

/-- All parts of a division are words. -/
theorem Worded.isWord {ws : List (List Char)} {cs : List Char} (h : Worded ws cs) :
    ∀ w ∈ ws, IsWord w := by
  induction h with
  | nil => simp
  | blank _ _ ih => exact ih
  | word hw _ _ ih =>
    intro v hv
    rcases List.mem_cons.mp hv with rfl | hv
    · exact hw
    · exact ih v hv

/-- What is left of a text without its blanks are its words. -/
theorem Worded.flatten_eq {ws : List (List Char)} {cs : List Char} (h : Worded ws cs) :
    ws.flatten = cs.filter (! isBlank ·) := by
  induction h with
  | nil => rfl
  | blank hblank _ ih => simp [hblank, ih]
  | word hw _ _ ih =>
    rw [List.flatten_cons, List.filter_append, ← ih, List.filter_eq_self.mpr]
    simpa using hw.noBlank

/-! ## Reading words back -/

/-- Words with a space in front of each run into nothing. -/
theorem noWord_gapped (ws : List (List Char)) : NoWord (gapped ws) := by
  cases ws with
  | nil => exact noWord_nil
  | cons w ws => exact noWord_cons rfl

/-- Words that are written with a space in front of each are read back. -/
theorem words_gapped {ws : List (List Char)} (hws : ∀ w ∈ ws, IsWord w) :
    words (gapped ws) = ws := by
  induction ws with
  | nil => rfl
  | cons w ws ih =>
    have hw := hws w List.mem_cons_self
    have hgapped : gapped (w :: ws) = ' ' :: (w ++ gapped ws) := rfl
    rw [hgapped, words_cons_of_blank rfl, words_append w (noWord_gapped ws),
      words_word hw.ne_nil hw.noBlank, ih fun v hv => hws v (List.mem_cons_of_mem w hv)]
    rfl

/-- The space in front of the first word does not matter. -/
theorem words_tail_gapped (ws : List (List Char)) : words (gapped ws).tail = words (gapped ws) := by
  cases ws with
  | nil => rfl
  | cons w ws => exact (words_cons_of_blank rfl _).symm

/-- Normalising keeps the words of a text. -/
theorem words_normalize (text : String) : words (normalize text).toList = words text.toList := by
  rw [toList_normalize, words_tail_gapped, words_gapped (worded_words _).isWord]

/-- Normalising keeps all characters that are not blank, in their order. -/
theorem filter_normalize (text : String) :
    (normalize text).toList.filter (! isBlank ·) = text.toList.filter (! isBlank ·) := by
  rw [← (worded_words _).flatten_eq, words_normalize, (worded_words _).flatten_eq]

/-! ## Canonical texts -/

/-- Whether blanks stand between words only, and each of them is a single space. -/
structure Canonical (cs : List Char) : Prop where
  /-- No other blank than the space occurs. -/
  spaces : ∀ c ∈ cs, isBlank c = true → c = ' '
  leading : cs.head? ≠ some ' '
  trailing : cs.getLast? ≠ some ' '
  /-- Of two characters in a row at most one is a space. -/
  single : cs.IsChain fun c d => ¬ (c = ' ' ∧ d = ' ')

/-- The empty text is canonical. -/
theorem canonical_nil : Canonical [] where
  spaces := by simp
  leading := by simp
  trailing := by simp
  single := .nil

/-- The space is a blank. -/
private theorem ne_space {c : Char} (hc : isBlank c = false) : c ≠ ' ' := by
  rintro rfl
  exact absurd hc (by decide)

/-- A canonical text can go on with a character that is not blank. -/
theorem Canonical.concat {cs : List Char} (h : Canonical cs) {c : Char} (hc : isBlank c = false) :
    Canonical (cs ++ [c]) where
  spaces := by
    intro d hd hblank
    rcases List.mem_append.mp hd with hd | hd
    · exact h.spaces d hd hblank
    · rw [List.mem_singleton.mp hd, hc] at hblank
      cases hblank
  leading := by
    have hleading := h.leading
    cases cs with
    | nil => simp [ne_space hc]
    | cons d ds => simpa using hleading
  trailing := by simp [ne_space hc]
  single := by
    rw [List.isChain_append]
    exact ⟨h.single, .singleton c, by simp [ne_space hc]⟩

/-- Behind a word a canonical text can also go on with a space and such a character. -/
theorem Canonical.concat_space {cs : List Char} (h : Canonical cs) (hne : cs ≠ []) {c : Char}
    (hc : isBlank c = false) : Canonical (cs ++ [' ', c]) where
  spaces := by
    intro d hd hblank
    rcases List.mem_append.mp hd with hd | hd
    · exact h.spaces d hd hblank
    · rcases List.mem_pair.mp hd with rfl | rfl
      · rfl
      · rw [hc] at hblank
        cases hblank
  leading := by
    have hleading := h.leading
    cases cs with
    | nil => exact absurd rfl hne
    | cons d ds => simpa using hleading
  trailing := by simp [ne_space hc]
  single := by
    rw [List.isChain_append]
    refine ⟨h.single, by simp [ne_space hc], ?_⟩
    -- The text does not end in a space of its own.
    rintro d hd e - ⟨rfl, -⟩
    exact h.trailing hd

/-- What has been written is canonical after every character that is read; a gap is only ever left
behind something that has been written. -/
theorem canonical_appendWords {out : String} {gap : Bool} (hout : Canonical out.toList)
    (hgap : gap = true → out ≠ "") (cs : List Char) :
    Canonical (appendWords out gap cs).toList := by
  induction cs generalizing out gap with
  | nil => exact hout
  | cons c cs ih =>
    rw [appendWords]
    -- A blank is only remembered; a character is written with a space, if one is due.
    cases hc : isBlank c with
    | true => exact ih hout (by simp)
    | false =>
      apply ih _ (by simp)
      cases gap with
      | true =>
        have hne : out.toList ≠ [] := by simpa using hgap rfl
        simpa using hout.concat_space hne hc
      | false => simpa using hout.concat hc

/-- What normalising writes is canonical. -/
theorem canonical_normalize (text : String) : Canonical (normalize text).toList := by
  have hempty : Canonical "".toList := canonical_nil
  exact canonical_appendWords hempty (by simp) text.toList

/-! ## Writing canonical texts -/

/-- Behind a word a character is written right away, if it is not blank. -/
private theorem continued_cons {c : Char} (hc : isBlank c = false) (cs : List Char) :
    continued (c :: cs) = c :: continued cs := by
  simp [continued, hc, gapped_words_cons hc]

/-- Behind a word, what is canonical as far as it goes is written as it is read. -/
theorem continued_of_canonical {cs : List Char} (hspaces : ∀ c ∈ cs, isBlank c = true → c = ' ')
    (htrailing : cs.getLast? ≠ some ' ')
    (hsingle : cs.IsChain fun c d => ¬ (c = ' ' ∧ d = ' ')) : continued cs = cs := by
  induction cs with
  | nil => rfl
  | cons c cs ih =>
    cases cs with
    | nil =>
      -- The last character is not a blank, as it would be a space at the end.
      have hc : isBlank c = false := by
        by_contra h
        have hspace := hspaces c List.mem_cons_self (by simpa using h)
        exact htrailing (by rw [hspace]; rfl)
      rw [continued_cons hc]
      rfl
    | cons d ds =>
      obtain ⟨hpair, hsingle⟩ := List.isChain_cons_cons.mp hsingle
      have hrest := ih (fun e he => hspaces e (List.mem_cons_of_mem c he))
        (by simpa using htrailing) hsingle
      cases hc : isBlank c with
      | false => rw [continued_cons hc, hrest]
      | true =>
        -- A single space is followed by a word.
        have hspace := hspaces c List.mem_cons_self hc
        have hd : isBlank d = false := by
          by_contra h
          exact hpair ⟨hspace, hspaces d (by simp) (by simpa using h)⟩
        rw [continued_cons hd] at hrest
        rw [continued, if_pos hc, gapped_words_cons hd, hrest, hspace]

/-- A canonical text does not change. -/
theorem normalize_of_canonical {text : String} (h : Canonical text.toList) :
    normalize text = text := by
  rw [← String.toList_inj, toList_normalize]
  have hwritten := continued_of_canonical h.spaces h.trailing h.single
  have hleading := h.leading
  have hspaces := h.spaces
  generalize text.toList = cs at hwritten hleading hspaces ⊢
  cases cs with
  | nil => rfl
  | cons c cs =>
    -- The first character is not a blank, as it would be a space in front.
    have hc : isBlank c = false := by
      by_contra hblank
      have hspace := hspaces c List.mem_cons_self (by simpa using hblank)
      exact hleading (by rw [hspace]; rfl)
    rw [continued_cons hc] at hwritten
    rw [gapped_words_cons hc, List.tail_cons, hwritten]

/-! ## Normalising -/

/-- **Normalising brings a text into the canonical form of its words.**  It keeps the words, which
are the only ones that the text can be divided into, and leaves single spaces between them and no
other blanks.  So normalising again changes nothing, the texts that do not change are the canonical
ones, and texts come to the same exactly if they have the same words. -/
theorem normalize_canonical (text : String) :
    (words (normalize text).toList = words text.toList ∧
      ∀ ws, words text.toList = ws ↔ Worded ws text.toList) ∧
    Canonical (normalize text).toList ∧
    normalize (normalize text) = normalize text ∧
    (normalize text = text ↔ Canonical text.toList) ∧
    ∀ other : String,
      normalize text = normalize other ↔ words text.toList = words other.toList := by
  refine ⟨⟨words_normalize text, fun ws => words_eq_iff⟩, canonical_normalize text,
    normalize_of_canonical (canonical_normalize text), ?fixed, ?kernel⟩
  case fixed =>
    constructor
    · intro h
      rw [← h]
      exact canonical_normalize text
    · exact normalize_of_canonical
  case kernel =>
    intro other
    constructor
    · intro h
      -- The words can be read off the normalised text.
      rw [← words_normalize text, h, words_normalize]
    · intro h
      rw [← String.toList_inj, toList_normalize, toList_normalize, h]

-- Blanks of all sorts are replaced, and a text of nothing else comes to the empty text.
example : normalize "\t1 \u2003+\n 2\u00a0" = "1 + 2" ∧ normalize " \u3000" = "" := by decide

end Reckoner
