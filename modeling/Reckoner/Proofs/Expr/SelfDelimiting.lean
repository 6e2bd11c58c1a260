import Reckoner.Expr.Document
import Reckoner.Expr.Term
import Reckoner.Proofs.Json.Ink
import Reckoner.Proofs.Text.Integer

/-!
# Texts of trees that end by themselves

The document of a tree and its nested application are laid out alike: what a node consists of
stands between an opening, which tells its kind, and a closing, with a separator where it has two
parts.  A `Layout` says what these are, and `Layout.ink` lists the characters of a tree that is laid
out in this way.

Unlike a rendering, such a text ends by itself.  Whatever follows it, it can be read off the front
of a text in one way only (`Layout.readable`): the opening tells the kind, each part is read up to
its own end, and only an integer needs the character behind it, which is that of the closing.  So
different trees have different documents and different applications, and none of these texts is the
beginning of another one of its sort (`Expr.texts_selfDelimiting`).  Trees may be of any depth;
nothing is asked of a reader.
-/

namespace Reckoner

/-- What a node is written between, and what stands between its parts. -/
structure Layout where
  opening : Kind → List Char
  separator : List Char
  closing : Kind → List Char
  /-- An opening tells the kind of the node, whatever stands behind it. -/
  kind_eq_of_opening : ∀ {k l : Kind} {rest rest' : List Char},
    opening k ++ rest = opening l ++ rest' → k = l
  /-- The digits of an integer do not go on in the closing behind it. -/
  noDigit_closing : ∀ (k : Kind) (rest : List Char), NoDigit (closing k ++ rest)

namespace Layout

variable (layout : Layout)

/-! ## Characters -/

/-- What a node of a given kind consists of, between its opening and its closing. -/
def enclose (kind : Kind) (content : List Char) : List Char :=
  layout.opening kind ++ (content ++ layout.closing kind)

/-- The two parts of a node. -/
def pair (first second : List Char) : List Char := first ++ (layout.separator ++ second)

/-- The characters of a tree that is laid out node by node. -/
def ink : Expr → List Char
  | .constant v => layout.enclose .constant (decimal32 v).toList
  | .negate e => layout.enclose .negate (ink e)
  | .exponent b n => layout.enclose .exponent (layout.pair (ink b) (decimal32 n).toList)
  | .addition l r => layout.enclose .addition (layout.pair (ink l) (ink r))
  | .multiplication l r => layout.enclose .multiplication (layout.pair (ink l) (ink r))

variable {layout}

/-- Every tree is something between the opening and the closing of its kind. -/
theorem ink_eq_enclose (e : Expr) : ∃ content, layout.ink e = layout.enclose e.kind content := by
  cases e <;> exact ⟨_, rfl⟩

/-- What follows a node stands behind its closing. -/
theorem enclose_append (kind : Kind) (content rest : List Char) :
    layout.enclose kind content ++ rest =
      layout.opening kind ++ (content ++ (layout.closing kind ++ rest)) := by
  simp only [enclose, List.append_assoc]

/-- What follows two parts stands behind the second one. -/
theorem pair_append (first second rest : List Char) :
    layout.pair first second ++ rest = first ++ (layout.separator ++ (second ++ rest)) := by
  simp only [pair, List.append_assoc]

/-! ## Reading a tree off the front of a text -/

/-- Texts that agree start with trees of one kind. -/
theorem kind_eq_of_append_eq {e e' : Expr} {rest rest' : List Char}
    (h : layout.ink e ++ rest = layout.ink e' ++ rest') : e.kind = e'.kind := by
  obtain ⟨content, he⟩ := layout.ink_eq_enclose e
  obtain ⟨content', he'⟩ := layout.ink_eq_enclose e'
  rw [he, he', enclose_append, enclose_append] at h
  exact layout.kind_eq_of_opening h

/-- Nodes of one kind open alike, so that texts that agree do so behind the opening. -/
theorem enclose_append_inj {kind : Kind} {content content' rest rest' : List Char}
    (h : layout.enclose kind content ++ rest = layout.enclose kind content' ++ rest') :
    content ++ (layout.closing kind ++ rest) = content' ++ (layout.closing kind ++ rest') := by
  rw [enclose_append, enclose_append] at h
  exact List.append_cancel_left h

/-- An integer can be read up to the closing behind it. -/
theorem decimal32_closing_inj {kind : Kind} {v w : Int32} {rest rest' : List Char}
    (h : (decimal32 v).toList ++ (layout.closing kind ++ rest) =
      (decimal32 w).toList ++ (layout.closing kind ++ rest')) : v = w ∧ rest = rest' := by
  -- The integer ends where the closing starts, as no digit is in the way.
  obtain ⟨hvalue, h⟩ :=
    decimal32_append_inj (layout.noDigit_closing kind rest) (layout.noDigit_closing kind rest') h
  exact ⟨hvalue, List.append_cancel_left h⟩

/-- Whether a tree can be read off the front of a text in one way only, whatever follows it. -/
def Readable (layout : Layout) (e : Expr) : Prop :=
  ∀ {e' : Expr} {rest rest' : List Char},
    layout.ink e ++ rest = layout.ink e' ++ rest' → e = e' ∧ rest = rest'

/-- The first part of a node is read up to the separator. -/
theorem Readable.pair_append_inj {e : Expr} (he : layout.Readable e) {e' : Expr}
    {second second' rest rest' : List Char}
    (h : layout.pair (layout.ink e) second ++ rest = layout.pair (layout.ink e') second' ++ rest') :
    e = e' ∧ second ++ rest = second' ++ rest' := by
  rw [pair_append, pair_append] at h
  obtain ⟨hfirst, h⟩ := he h
  exact ⟨hfirst, List.append_cancel_left h⟩

/-- Two operands are read one after the other. -/
theorem Readable.operands_append_inj {l r : Expr} (hl : layout.Readable l)
    (hr : layout.Readable r) {kind : Kind} {l' r' : Expr} {rest rest' : List Char}
    (h : layout.enclose kind (layout.pair (layout.ink l) (layout.ink r)) ++ rest =
      layout.enclose kind (layout.pair (layout.ink l') (layout.ink r')) ++ rest') :
    l = l' ∧ r = r' ∧ rest = rest' := by
  -- The left operand ends by itself, and so does the right one in front of the closing.
  obtain ⟨hleft, h⟩ := hl.pair_append_inj (enclose_append_inj h)
  obtain ⟨hright, h⟩ := hr h
  exact ⟨hleft, hright, List.append_cancel_left h⟩

/-- Every tree can be read in one way only. -/
theorem readable (e : Expr) : layout.Readable e := by
  -- The text behind a tree is arbitrary, so that its parts can be read one by one.
  induction e with
  | constant v =>
    intro e' rest rest' h
    have hkind := kind_eq_of_append_eq h
    cases e' with
    | constant w =>
      -- Nodes of the same kind are compared part by part; other kinds have been ruled out.
      obtain ⟨hvalue, h⟩ := decimal32_closing_inj (enclose_append_inj h)
      exact ⟨by rw [hvalue], h⟩
    | negate _ | exponent _ _ | addition _ _ | multiplication _ _ => cases hkind
  | negate e ih =>
    intro e' rest rest' h
    have hkind := kind_eq_of_append_eq h
    cases e' with
    | negate e' =>
      obtain ⟨hoperand, h⟩ := ih (enclose_append_inj h)
      exact ⟨by rw [hoperand], List.append_cancel_left h⟩
    | constant _ | exponent _ _ | addition _ _ | multiplication _ _ => cases hkind
  | exponent b n ih =>
    intro e' rest rest' h
    have hkind := kind_eq_of_append_eq h
    cases e' with
    | exponent b' n' =>
      obtain ⟨hbase, h⟩ := ih.pair_append_inj (enclose_append_inj h)
      obtain ⟨hpower, h⟩ := decimal32_closing_inj h
      exact ⟨by rw [hbase, hpower], h⟩
    | constant _ | negate _ | addition _ _ | multiplication _ _ => cases hkind
  | addition l r ihl ihr =>
    intro e' rest rest' h
    have hkind := kind_eq_of_append_eq h
    cases e' with
    | addition l' r' =>
      obtain ⟨hleft, hright, h⟩ := ihl.operands_append_inj ihr h
      exact ⟨by rw [hleft, hright], h⟩
    | constant _ | negate _ | exponent _ _ | multiplication _ _ => cases hkind
  | multiplication l r ihl ihr =>
    intro e' rest rest' h
    have hkind := kind_eq_of_append_eq h
    cases e' with
    | multiplication l' r' =>
      obtain ⟨hleft, hright, h⟩ := ihl.operands_append_inj ihr h
      exact ⟨by rw [hleft, hright], h⟩
    | constant _ | negate _ | exponent _ _ | addition _ _ => cases hkind

/-- A tree whose text another text starts with is the tree of that text. -/
theorem eq_of_prefix_ink {e e' : Expr} (h : layout.ink e <+: layout.ink e') : e = e' := by
  obtain ⟨rest, h⟩ := h
  -- What the longer text has more stands behind the shorter one.
  have happend : layout.ink e ++ rest = layout.ink e' ++ [] := by rw [h, List.append_nil]
  exact (layout.readable e happend).1

end Layout

/-! ## Texts that end by themselves -/

/-- Whether a text starts with another one and has more behind it. -/
def ProperPrefix (s t : String) : Prop := s.toList <+: t.toList ∧ s ≠ t

/-- Texts with a layout tell the tree, and none goes on behind another one. -/
theorem Layout.selfDelimiting {layout : Layout} {text : Expr → String}
    (htext : ∀ e, (text e).toList = layout.ink e) (e e' : Expr) :
    (text e = text e' ↔ e = e') ∧ ¬ ProperPrefix (text e) (text e') := by
  -- Both parts rest on what a text starts with.
  have hstart : (text e).toList <+: (text e').toList → e = e' := by
    rw [htext, htext]
    exact layout.eq_of_prefix_ink
  constructor
  · constructor
    · intro h
      exact hstart (h ▸ List.prefix_rfl)
    · intro h
      rw [h]
  · rintro ⟨h, hne⟩
    exact hne (congrArg text (hstart h))

/-! ## Documents -/

open Json (Document literal literal_append_inj)

/-- The bracket of the array in which the parts of a node stand, if there are two. -/
def Kind.bracket (kind : Kind) (c : Char) : List Char :=
  match kind with
  | .constant | .negate => []
  | .exponent | .addition | .multiplication => [c]

/-- Documents are objects that name the kind first. -/
def Layout.document : Layout where
  opening kind := '\x7b' :: (literal "type" ++ ':' :: (literal kind.name ++
    ',' :: (literal "value" ++ ':' :: kind.bracket '[')))
  separator := [',']
  closing kind := kind.bracket ']' ++ ['\x7d']
  kind_eq_of_opening := by
    intro k l rest rest' h
    simp only [List.cons_append, List.append_assoc, List.cons.injEq, true_and,
      List.append_cancel_left_eq] at h
    -- The quotation mark behind the word keeps it from being the start of another one.
    exact Kind.name_injective (literal_append_inj h).1
  noDigit_closing := by
    intro kind rest
    cases kind <;> exact noDigit_cons rfl

namespace Expr

/-- A number is written as everywhere else. -/
theorem ink_int32 (v : Int32) : (Document.int32 v).ink = (decimal32 v).toList :=
  congrArg String.toList (Json.Numeral.text_ofInt v.toInt)

/-- A node with one part is laid out without a bracket. -/
theorem ink_tagged {kind : Kind} (hkind : ∀ c, kind.bracket c = []) (content : Document) :
    (tagged kind content).ink = Layout.document.enclose kind content.ink := by
  simp [tagged, Document.ink, Document.membersInk, Layout.enclose, Layout.document, hkind]

/-- A node with two parts has them in brackets. -/
theorem ink_tagged_pair {kind : Kind} (hkind : ∀ c, kind.bracket c = [c])
    (first second : Document) :
    (tagged kind (.array [first, second])).ink =
      Layout.document.enclose kind (Layout.document.pair first.ink second.ink) := by
  simp [tagged, Document.ink, Document.membersInk, Document.itemsInk, Layout.enclose, Layout.pair,
    Layout.document, hkind]

/-- The compact document of a tree has the characters of its layout. -/
theorem toList_json (e : Expr) : e.json.toList = Layout.document.ink e := by
  rw [json, Document.toList_write]
  induction e with
  | constant v =>
    rw [document, ink_tagged fun _ => rfl, ink_int32]
    rfl
  | negate e ih =>
    rw [document, ink_tagged fun _ => rfl, ih]
    rfl
  | exponent b n ih =>
    rw [document, ink_tagged_pair fun _ => rfl, ih, ink_int32]
    rfl
  | addition l r ihl ihr =>
    rw [document, ink_tagged_pair fun _ => rfl, ihl, ihr]
    rfl
  | multiplication l r ihl ihr =>
    rw [document, ink_tagged_pair fun _ => rfl, ihl, ihr]
    rfl

end Expr

/-! ## Nested applications -/

/-- Applications have the word for the kind in front of a parenthesis. -/
def Layout.application : Layout where
  opening kind := kind.label.toList ++ ['(']
  separator := [',', ' ']
  closing _ := [')']
  kind_eq_of_opening := by
    intro k l rest rest' h
    -- The words differ in their first letters.
    cases k <;> cases l <;> simp_all [Kind.label]
  noDigit_closing := by
    intro kind rest
    exact noDigit_cons rfl

namespace Expr

/-- So has its nested application. -/
theorem toList_term (e : Expr) : e.term.toList = Layout.application.ink e := by
  -- `termTo_eq` moves the text in front of an operand out.
  induction e with
  | constant v => simp [term, termTo, Layout.ink, Layout.enclose, Layout.application, Kind.label]
  | negate e ih =>
    rw [term, termTo, termTo_eq]
    simp [Layout.ink, Layout.enclose, Layout.application, Kind.label, ih]
  | exponent b n ih =>
    rw [term, termTo, termTo_eq]
    simp [Layout.ink, Layout.enclose, Layout.pair, Layout.application, Kind.label, ih]
  | addition l r ihl ihr =>
    rw [term, termTo, termTo_eq, termTo_eq]
    simp [Layout.ink, Layout.enclose, Layout.pair, Layout.application, Kind.label, ihl, ihr]
  | multiplication l r ihl ihr =>
    rw [term, termTo, termTo_eq, termTo_eq]
    simp [Layout.ink, Layout.enclose, Layout.pair, Layout.application, Kind.label, ihl, ihr]

/-- **Documents and applications tell trees apart**, of whatever depth: two trees have the same
compact document exactly if they are the same, and so with their applications, and no such text is
the beginning of a longer one of the same sort. -/
theorem texts_selfDelimiting (e₁ e₂ : Expr) :
    (e₁.json = e₂.json ↔ e₁ = e₂) ∧ (e₁.term = e₂.term ↔ e₁ = e₂) ∧
      ¬ ProperPrefix e₁.json e₂.json ∧ ¬ ProperPrefix e₁.term e₂.term := by
  obtain ⟨hjson, hjsonEnds⟩ := Layout.selfDelimiting toList_json e₁ e₂
  obtain ⟨hterm, htermEnds⟩ := Layout.selfDelimiting toList_term e₁ e₂
  exact ⟨hjson, hterm, hjsonEnds, htermEnds⟩

end Expr
end Reckoner
