import Reckoner.Proofs.Rendering.Ink
import Reckoner.Proofs.Text.Integer

/-!
# Renderings are uniquely readable

Different trees have different renderings.  A rendering does not tell by itself where it ends,
since a power ends in the digits of its exponent; but if the text does not go on with a digit
behind it, a rendering can be read off the front of a text in one way only
(`Expr.uniquelyReadable`).  Inside a rendering every operand is followed by a blank.

Reading goes from the root to the operands.  The first characters tell the root, up to the
operator of a sum or product, which stands behind the left operand (`Expr.opening_ink`): a second
blank opens a power, a minus sign with a blank behind it a negation, and a minus sign with a digit
behind it a negative constant.
-/

namespace Reckoner

/-! ## The first characters -/

/-- What the first characters of a rendering tell of the root. -/
inductive Opening where
  | constant
  | negate
  | exponent
  | binary

/-- What a text opens, if it starts with a rendering. -/
def Opening.ofChars : List Char → Opening
  | ' ' :: ' ' :: _ => .exponent
  | ' ' :: '(' :: _ => .binary
  | ' ' :: '-' :: ' ' :: _ => .negate
  | _ => .constant

namespace Expr

/-- What a tree opens with. -/
def opening : Expr → Opening
  | .constant _ => .constant
  | .negate _ => .negate
  | .exponent _ _ => .exponent
  | .addition _ _ => .binary
  | .multiplication _ _ => .binary

theorem ink_eq_cons (e : Expr) : ∃ cs, e.ink = ' ' :: cs := by
  cases e <;> exact ⟨_, rfl⟩

/-- A blank with an integer behind it opens a constant. -/
private theorem ofChars_decimal32 (v : Int32) (rest : List Char) :
    Opening.ofChars (' ' :: ((decimal32 v).toList ++ rest)) = .constant := by
  obtain ⟨d, ds, hd, h⟩ := toList_decimal v.toInt
  have hblank : d ≠ ' ' := by
    rintro rfl
    exact absurd hd (by decide)
  have hparenthesis : d ≠ '(' := by
    rintro rfl
    exact absurd hd (by decide)
  have hminus : d ≠ '-' := by
    rintro rfl
    exact absurd hd (by decide)
  -- A minus sign in front of a digit opens no negation.
  unfold decimal32
  rcases h with h | h
  · rw [h]
    simp [Opening.ofChars, hblank, hparenthesis, hminus]
  · rw [h]
    simp [Opening.ofChars, hblank]

/-- The first characters of a rendering tell what the tree opens with. -/
theorem opening_ink (e : Expr) (rest : List Char) :
    Opening.ofChars (e.ink ++ rest) = e.opening := by
  cases e with
  | constant v =>
    rw [ink, List.cons_append, List.append_assoc]
    exact ofChars_decimal32 v _
  | negate e =>
    -- An operand starts with a blank.
    obtain ⟨cs, h⟩ := ink_eq_cons e
    rw [ink, h]
    rfl
  | exponent b n =>
    obtain ⟨cs, h⟩ := ink_eq_cons b
    rw [ink, h]
    rfl
  | addition l r => rfl
  | multiplication l r => rfl

/-- Texts that agree start with renderings of trees that open alike. -/
theorem opening_eq_of_append_eq {e e' : Expr} {rest rest' : List Char}
    (h : e.ink ++ rest = e'.ink ++ rest') : e.opening = e'.opening := by
  rw [← opening_ink e rest, h, opening_ink]

/-! ## Reading a tree off the front of a text -/

/-- A rendering can be read off the front of a text that does not go on with a digit. -/
def UniquelyReadable (e : Expr) : Prop :=
  ∀ (e' : Expr) (rest rest' : List Char), NoDigit rest → NoDigit rest' →
    e.ink ++ rest = e'.ink ++ rest' → e = e' ∧ rest = rest'

/-- Two operands can be read with the operator between them. -/
private theorem binaryInk_append_inj {l r l' r' : Expr} (hl : l.UniquelyReadable)
    (hr : r.UniquelyReadable) {operator operator' : Char} {rest rest' : List Char}
    (h : binaryInk operator l.ink r.ink ++ rest = binaryInk operator' l'.ink r'.ink ++ rest') :
    operator = operator' ∧ l = l' ∧ r = r' ∧ rest = rest' := by
  -- Both texts open a parenthesis.
  simp only [binaryInk, List.cons_append, List.append_assoc, List.cons.injEq, true_and] at h
  -- A blank follows the left operand, and a parenthesis the right one.
  obtain ⟨hleft, h⟩ := hl _ _ _ (noDigit_cons rfl) (noDigit_cons rfl) h
  simp only [List.cons.injEq, true_and] at h
  obtain ⟨hoperator, h⟩ := h
  obtain ⟨hright, h⟩ := hr _ _ _ (noDigit_cons rfl) (noDigit_cons rfl) h
  simp only [List.nil_append, List.cons.injEq, true_and] at h
  exact ⟨hoperator, hleft, hright, h⟩

/-- Every rendering can be read in one way only. -/
theorem uniquelyReadable (e : Expr) : e.UniquelyReadable := by
  -- The text behind a rendering is arbitrary, so that the operands can be read one by one.
  induction e with
  | constant v =>
    intro e' rest rest' hrest hrest' h
    have hopening := opening_eq_of_append_eq h
    cases e' with
    | constant w =>
      simp only [ink, List.cons_append, List.append_assoc, List.cons.injEq, true_and] at h
      obtain ⟨hvalue, h⟩ := decimal32_append_inj (noDigit_cons rfl) (noDigit_cons rfl) h
      exact ⟨congrArg constant hvalue, (List.cons.inj h).2⟩
    | negate _ | exponent _ _ | addition _ _ | multiplication _ _ => cases hopening
  | negate e ih =>
    intro e' rest rest' hrest hrest' h
    have hopening := opening_eq_of_append_eq h
    cases e' with
    | negate e' =>
      simp only [ink, List.cons_append, List.append_assoc, List.cons.injEq, true_and] at h
      obtain ⟨hoperand, h⟩ := ih _ _ _ (noDigit_cons rfl) (noDigit_cons rfl) h
      exact ⟨congrArg negate hoperand, (List.cons.inj h).2⟩
    | constant _ | exponent _ _ | addition _ _ | multiplication _ _ => cases hopening
  | exponent b n ih =>
    intro e' rest rest' hrest hrest' h
    have hopening := opening_eq_of_append_eq h
    cases e' with
    | exponent b' n' =>
      simp only [ink, List.cons_append, List.append_assoc, List.cons.injEq, true_and] at h
      obtain ⟨hbase, h⟩ := ih _ _ _ (noDigit_cons rfl) (noDigit_cons rfl) h
      simp only [List.cons.injEq, true_and] at h
      -- Only here does the end depend on the text behind the rendering.
      obtain ⟨hpower, h⟩ := decimal32_append_inj hrest hrest' h
      exact ⟨by rw [hbase, hpower], h⟩
    | constant _ | negate _ | addition _ _ | multiplication _ _ => cases hopening
  | addition l r ihl ihr =>
    intro e' rest rest' hrest hrest' h
    have hopening := opening_eq_of_append_eq h
    cases e' with
    | addition l' r' =>
      obtain ⟨-, hleft, hright, h⟩ := binaryInk_append_inj ihl ihr h
      exact ⟨by rw [hleft, hright], h⟩
    | multiplication l' r' =>
      -- A product opens like a sum, but its operator is another one.
      obtain ⟨hoperator, -⟩ := binaryInk_append_inj ihl ihr h
      exact absurd hoperator (by decide)
    | constant _ | negate _ | exponent _ _ => cases hopening
  | multiplication l r ihl ihr =>
    intro e' rest rest' hrest hrest' h
    have hopening := opening_eq_of_append_eq h
    cases e' with
    | multiplication l' r' =>
      obtain ⟨-, hleft, hright, h⟩ := binaryInk_append_inj ihl ihr h
      exact ⟨by rw [hleft, hright], h⟩
    | addition l' r' =>
      obtain ⟨hoperator, -⟩ := binaryInk_append_inj ihl ihr h
      exact absurd hoperator (by decide)
    | constant _ | negate _ | exponent _ _ => cases hopening

theorem ink_injective {e₁ e₂ : Expr} (h : e₁.ink = e₂.ink) : e₁ = e₂ := by
  have happend : e₁.ink ++ [] = e₂.ink ++ [] := by rw [h]
  exact (uniquelyReadable e₁ e₂ [] [] noDigit_nil noDigit_nil happend).1

/-- **Rendering loses nothing**: two trees are rendered alike exactly if they are the same. -/
theorem render_eq_iff (e₁ e₂ : Expr) : e₁.render = e₂.render ↔ e₁ = e₂ := by
  rw [render_eq_iff_ink_eq]
  constructor
  · intro h
    exact ink_injective h
  · intro h
    rw [h]

end Expr
end Reckoner
