import Reckoner.Proofs.Rendering.Ink
import Reckoner.Proofs.Text.Integer
import Reckoner.Proofs.Text.Words

/-!
# The marks of a normalised rendering

A normalised rendering is a row of marks: integers and signs with one space in front of each.  Only
a parenthesis that closes right behind the exponent of a power has no space in front of it, since a
power ends without a blank; such a parenthesis is a mark of its own.  `Expr.marks` lists the marks
by recursion on the tree, and `Expr.toList_normalize_render` says that a normalised rendering
consists of them.

Marks can be read off a text one by one (`Mark.spaced_append_inj`), so that equal texts have equal
marks (`Expr.normalize_render_eq_iff_marks_eq`).
-/

namespace Reckoner

/-! ## Marks -/

/-- The operations with two operands. -/
inductive Operator where
  | addition
  | multiplication
  deriving DecidableEq

/-- The marks that are a single character of their own. -/
inductive Sign where
  | minus
  | caret
  | opening
  | closing
  | operator (operator : Operator)
  deriving DecidableEq

namespace Sign

def char : Sign → Char
  | .minus => '-'
  | .caret => '^'
  | .opening => '('
  | .closing => ')'
  | .operator .addition => '+'
  | .operator .multiplication => '*'

/-- No sign is a digit. -/
theorem isDigit_char (s : Sign) : isDigit s.char = false := by
  rcases s with _ | _ | _ | _ | _ | _ <;> rfl

/-- No sign is a blank. -/
theorem isBlank_char (s : Sign) : isBlank s.char = false := by
  rcases s with _ | _ | _ | _ | _ | _ <;> rfl

/-- Signs are told by their characters. -/
theorem char_injective {s t : Sign} (h : s.char = t.char) : s = t := by
  rcases s with _ | _ | _ | _ | _ | _ <;> rcases t with _ | _ | _ | _ | _ | _ <;>
    simp [char] at h ⊢

end Sign

/-- A part of a normalised rendering. -/
inductive Mark where
  | integer (value : Int32)
  | sign (sign : Sign)
  /-- A parenthesis that closes right behind the mark before it. -/
  | attached
  deriving DecidableEq

namespace Mark

/-- The characters of a mark, with the space that sets it off from what is before it. -/
def spaced : Mark → List Char
  | .integer v => ' ' :: (decimal32 v).toList
  | .sign s => [' ', s.char]
  | .attached => [')']

def spacedAll (ms : List Mark) : List Char := ms.flatMap spaced

theorem spacedAll_append (ms ms' : List Mark) :
    spacedAll (ms ++ ms') = spacedAll ms ++ spacedAll ms' :=
  List.flatMap_append

theorem spacedAll_cons (m : Mark) (ms : List Mark) :
    spacedAll (m :: ms) = m.spaced ++ spacedAll ms :=
  List.flatMap_cons

end Mark

/-- The parenthesis that closes behind a right operand. -/
def Expr.closingMark (r : Expr) : Mark :=
  if r.kind = .exponent then .attached else .sign .closing

/-- Two operands between parentheses, with their operator. -/
def binaryMarks (operator : Operator) (left right : List Mark) (closing : Mark) : List Mark :=
  .sign .opening :: (left ++ .sign (.operator operator) :: (right ++ [closing]))

/-- The marks of a normalised rendering. -/
def Expr.marks : Expr → List Mark
  | .constant v => [.integer v]
  | .negate e => .sign .minus :: e.marks
  | .exponent b n => b.marks ++ [.sign .caret, .integer n]
  | .addition l r => binaryMarks .addition l.marks r.marks r.closingMark
  | .multiplication l r => binaryMarks .multiplication l.marks r.marks r.closingMark

/-! ## Words of a rendering -/

/-- Where no word runs across, the words of two texts are those of one after those of the other. -/
theorem gapped_words_append (cs : List Char) {ds : List Char} (hds : NoWord ds) :
    gapped (words (cs ++ ds)) = gapped (words cs) ++ gapped (words ds) := by
  rw [words_append cs hds, gapped_append]

/-- A blank in front of a text makes no word. -/
theorem gapped_words_blank (cs : List Char) : gapped (words (' ' :: cs)) = gapped (words cs) := by
  rw [words_cons_of_blank rfl]

/-- Characters without a blank among them are written with one space in front of them. -/
theorem gapped_words_word {w : List Char} (hne : w ≠ []) (hw : ∀ c ∈ w, isBlank c = false) :
    gapped (words w) = ' ' :: w := by
  rw [words_word hne hw]
  simp [gapped]

/-- A sign by itself is a word. -/
theorem gapped_words_sign (s : Sign) : gapped (words [s.char]) = (Mark.sign s).spaced := by
  apply gapped_words_word (List.cons_ne_nil _ _)
  simp [s.isBlank_char]

private theorem isBlank_of_isDigit {c : Char} (hc : isDigit c = true) : isBlank c = false := by
  simp only [isDigit, Char.isDigit, Bool.and_eq_true, decide_eq_true_eq] at hc
  have hlower : 48 ≤ c.toNat := hc.1
  have hupper : c.toNat ≤ 57 := hc.2
  simp [isBlank, blankRanges]
  omega

/-- An integer has no blank in it. -/
theorem isBlank_of_mem_decimal32 {v : Int32} {c : Char} (hc : c ∈ (decimal32 v).toList) :
    isBlank c = false := by
  unfold decimal32 decimal at hc
  split at hc
  next n =>
    rw [String.toList_ofList] at hc
    exact isBlank_of_isDigit (isDigit_of_mem_digits hc)
  next n =>
    rw [String.toList_ofList] at hc
    rcases List.mem_cons.mp hc with rfl | hc
    · -- The minus sign of a negative number is no blank either.
      rfl
    · exact isBlank_of_isDigit (isDigit_of_mem_digits hc)

/-- An integer has at least one digit. -/
theorem decimal32_ne_nil (v : Int32) : (decimal32 v).toList ≠ [] := by
  obtain ⟨d, ds, -, h | h⟩ := toList_decimal v.toInt
  · exact h ▸ List.cons_ne_nil _ _
  · exact h ▸ List.cons_ne_nil _ _

/-- An integer is a word, its sign included. -/
theorem gapped_words_decimal32 (v : Int32) :
    gapped (words (decimal32 v).toList) = (Mark.integer v).spaced :=
  gapped_words_word (decimal32_ne_nil v) fun _ => isBlank_of_mem_decimal32

namespace Expr

/-- A rendering starts with a blank, so that no word runs into it. -/
theorem noWord_ink_append (e : Expr) (rest : List Char) : NoWord (e.ink ++ rest) := by
  cases e <;> exact noWord_cons rfl

/-- A parenthesis behind a rendering is a word of its own unless the rendering is that of a power,
which ends in the digits of its exponent. -/
theorem gapped_words_ink_closing (e : Expr) :
    gapped (words (e.ink ++ [')'])) = gapped (words e.ink) ++ e.closingMark.spaced := by
  -- Any other rendering ends in a blank.
  have hblank : ∀ cs : List Char,
      gapped (words ((cs ++ [' ']) ++ [')'])) = gapped (words (cs ++ [' '])) ++ [' ', ')'] := by
    intro cs
    rw [List.append_assoc, List.singleton_append, gapped_words_append cs (noWord_cons rfl),
      gapped_words_append cs (noWord_cons rfl), List.append_assoc]
    rfl
  -- Both binary nodes end in a parenthesis and a blank.
  have hbinary : ∀ (c : Char) (left right : List Char),
      gapped (words (binaryInk c left right ++ [')'])) =
        gapped (words (binaryInk c left right)) ++ [' ', ')'] := by
    intro c left right
    have hink : binaryInk c left right =
        (' ' :: '(' :: (left ++ (' ' :: c :: ' ' :: right ++ [')']))) ++ [' '] := by
      simp [binaryInk]
    rw [hink]
    exact hblank _
  cases e with
  | constant v => exact hblank (' ' :: (decimal32 v).toList)
  | negate e => exact hblank (' ' :: '-' :: e.ink)
  | exponent b n =>
    -- The digits of the exponent and the parenthesis are one word.
    have hword : gapped (words ((decimal32 n).toList ++ [')'])) =
        (Mark.integer n).spaced ++ [')'] := by
      apply gapped_words_word (List.append_ne_nil_of_left_ne_nil (decimal32_ne_nil n) _)
      intro c hc
      rcases List.mem_append.mp hc with hc | hc
      · exact isBlank_of_mem_decimal32 hc
      · rw [List.mem_singleton.mp hc]
        rfl
    have hexponent : ∀ cs : List Char,
        gapped (words ((cs ++ ' ' :: (decimal32 n).toList) ++ [')'])) =
          gapped (words (cs ++ ' ' :: (decimal32 n).toList)) ++ [')'] := by
      intro cs
      rw [List.append_assoc, List.cons_append, gapped_words_append cs (noWord_cons rfl),
        gapped_words_append cs (noWord_cons rfl), gapped_words_blank, gapped_words_blank, hword,
        gapped_words_decimal32, List.append_assoc]
    have hink : (exponent b n).ink =
        (' ' :: (b.ink ++ [' ', '^'])) ++ ' ' :: (decimal32 n).toList := by
      simp [ink]
    rw [hink]
    exact hexponent _
  | addition l r => exact hbinary '+' l.ink r.ink
  | multiplication l r => exact hbinary '*' l.ink r.ink

/-- Both binary nodes are written alike. -/
private theorem gapped_words_binaryInk {l r : Expr}
    (hl : gapped (words l.ink) = Mark.spacedAll l.marks)
    (hr : gapped (words r.ink) = Mark.spacedAll r.marks) (operator : Operator) :
    gapped (words (binaryInk (Sign.operator operator).char l.ink r.ink)) =
      Mark.spacedAll (binaryMarks operator l.marks r.marks r.closingMark) := by
  have hink : binaryInk (Sign.operator operator).char l.ink r.ink =
      ' ' :: ([Sign.opening.char] ++ (l.ink ++ (' ' :: ([(Sign.operator operator).char] ++
        (' ' :: ((r.ink ++ [')']) ++ [' '])))))) := by
    simp [binaryInk, Sign.char]
  -- Every piece is followed by a blank, so that the words are those of the pieces.
  rw [hink, gapped_words_blank, gapped_words_append _ (noWord_ink_append l _),
    gapped_words_append l.ink (noWord_cons rfl), gapped_words_blank,
    gapped_words_append _ (noWord_cons rfl), gapped_words_blank,
    gapped_words_append _ (noWord_cons rfl), gapped_words_ink_closing, hl, hr, gapped_words_sign,
    gapped_words_sign]
  simp [binaryMarks, Mark.spacedAll, words, gapped, isBlank, blankRanges]

/-- The words of a rendering are its marks. -/
theorem gapped_words_ink (e : Expr) : gapped (words e.ink) = Mark.spacedAll e.marks := by
  induction e with
  | constant v =>
    rw [ink, gapped_words_blank, gapped_words_append _ (noWord_cons rfl), gapped_words_decimal32]
    rfl
  | negate e ih =>
    -- The minus sign stands alone, as the rendering behind it starts with a blank.
    have hink : (negate e).ink = ' ' :: ([Sign.minus.char] ++ (e.ink ++ [' '])) := rfl
    rw [hink, gapped_words_blank, gapped_words_append _ (noWord_ink_append e _),
      gapped_words_append e.ink (noWord_cons rfl), gapped_words_sign, ih]
    simp [marks, Mark.spacedAll_cons, words, gapped, isBlank, blankRanges]
  | exponent b n ih =>
    -- The caret and the exponent stand behind the rendering of the base.
    have hink : (exponent b n).ink =
        ' ' :: (b.ink ++ (' ' :: ([Sign.caret.char] ++ ' ' :: (decimal32 n).toList))) := rfl
    rw [hink, gapped_words_blank, gapped_words_append b.ink (noWord_cons rfl), gapped_words_blank,
      gapped_words_append _ (noWord_cons rfl), gapped_words_blank, gapped_words_sign,
      gapped_words_decimal32, ih, marks, Mark.spacedAll_append]
    simp [Mark.spacedAll]
  | addition l r ihl ihr => exact gapped_words_binaryInk ihl ihr .addition
  | multiplication l r ihl ihr => exact gapped_words_binaryInk ihl ihr .multiplication

/-- A normalised rendering consists of its marks, without the space in front of the first one. -/
theorem toList_normalize_render (e : Expr) :
    (normalize e.render).toList = (Mark.spacedAll e.marks).tail := by
  rw [toList_normalize, toList_render, gapped_words_ink]

end Expr

/-! ## Reading marks off a text -/

/-- An integer does not start like a sign, be it a minus sign with something else than a digit
behind it. -/
theorem decimal32_append_ne_cons (v : Int32) (rest : List Char) {c : Char} {cs : List Char}
    (hc : isDigit c = false) (hcs : NoDigit cs) : (decimal32 v).toList ++ rest ≠ c :: cs := by
  intro h
  obtain ⟨d, ds, hd, hdecimal | hdecimal⟩ := toList_decimal v.toInt
  · -- Without a minus sign the integer starts with a digit.
    rw [decimal32, hdecimal] at h
    rw [(List.cons.inj h).1, hc] at hd
    cases hd
  · -- With one a digit follows, as it does behind no other minus sign.
    rw [decimal32, hdecimal] at h
    have hdigit := hcs d (by rw [← (List.cons.inj h).2]; rfl)
    rw [hd] at hdigit
    cases hdigit

namespace Mark

/-- A mark is followed by a space, by a parenthesis or by nothing. -/
theorem noDigit_spacedAll (ms : List Mark) : NoDigit (spacedAll ms) := by
  cases ms with
  | nil => exact noDigit_nil
  | cons m ms => cases m <;> exact noDigit_cons rfl

/-- A mark can be read off the front of a text that does not go on with a digit. -/
theorem spaced_append_inj {m m' : Mark} {rest rest' : List Char} (hrest : NoDigit rest)
    (hrest' : NoDigit rest') (h : m.spaced ++ rest = m'.spaced ++ rest') :
    m = m' ∧ rest = rest' := by
  cases m with
  | integer v =>
    cases m' with
    -- The digits end where the next mark starts.
    | integer w =>
      obtain ⟨hvalue, htail⟩ := decimal32_append_inj hrest hrest' (List.cons.inj h).2
      exact ⟨congrArg integer hvalue, htail⟩
    -- An integer is told from a minus sign by the digit behind it.
    | sign t =>
      exact absurd (List.cons.inj h).2 (decimal32_append_ne_cons v rest t.isDigit_char hrest')
    | attached => simp [spaced] at h
  | sign s =>
    cases m' with
    | integer w =>
      exact absurd (List.cons.inj h).2.symm
        (decimal32_append_ne_cons w rest' s.isDigit_char hrest)
    | sign t =>
      obtain ⟨hchar, htail⟩ := List.cons.inj (List.cons.inj h).2
      exact ⟨congrArg sign (Sign.char_injective hchar), htail⟩
    | attached => simp [spaced] at h
  | attached =>
    cases m' with
    | attached => exact ⟨rfl, (List.cons.inj h).2⟩
    | integer w => simp [spaced] at h
    | sign t => simp [spaced] at h

/-- A row of marks is told by its characters. -/
theorem spacedAll_injective {ms ms' : List Mark} (h : spacedAll ms = spacedAll ms') :
    ms = ms' := by
  have hne : ∀ (m : Mark) (ms : List Mark), spacedAll (m :: ms) ≠ [] := by
    intro m ms
    cases m <;> exact List.cons_ne_nil _ _
  induction ms generalizing ms' with
  | nil =>
    cases ms' with
    | nil => rfl
    | cons m' ms' => exact absurd h.symm (hne m' ms')
  | cons m ms ih =>
    cases ms' with
    | nil => exact absurd h (hne m ms)
    | cons m' ms' =>
      rw [spacedAll_cons, spacedAll_cons] at h
      obtain ⟨hmark, hrest⟩ := spaced_append_inj (noDigit_spacedAll ms) (noDigit_spacedAll ms') h
      rw [hmark, ih hrest]

end Mark

namespace Expr

/-- The first mark of a rendering has a space in front of it. -/
private theorem spacedAll_marks_eq_cons (e : Expr) (ms : List Mark) :
    ∃ cs, Mark.spacedAll (e.marks ++ ms) = ' ' :: cs := by
  induction e generalizing ms with
  | constant v => exact ⟨_, rfl⟩
  | negate e ih => exact ⟨_, rfl⟩
  | exponent b n ih =>
    rw [marks, List.append_assoc]
    exact ih _
  | addition l r ihl ihr => exact ⟨_, rfl⟩
  | multiplication l r ihl ihr => exact ⟨_, rfl⟩

/-- Normalised renderings are the same text if and only if they have the same marks. -/
theorem normalize_render_eq_iff_marks_eq {e e' : Expr} :
    normalize e.render = normalize e'.render ↔ e.marks = e'.marks := by
  rw [← String.toList_inj, toList_normalize_render, toList_normalize_render]
  constructor
  · intro h
    -- The space in front of the first mark has been left out on both sides.
    apply Mark.spacedAll_injective
    obtain ⟨cs, hcs⟩ := spacedAll_marks_eq_cons e []
    obtain ⟨cs', hcs'⟩ := spacedAll_marks_eq_cons e' []
    rw [List.append_nil] at hcs hcs'
    rw [hcs, hcs'] at h ⊢
    exact congrArg (' ' :: ·) h
  · intro h
    rw [h]

end Expr
end Reckoner
