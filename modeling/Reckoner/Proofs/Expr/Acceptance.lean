import Mathlib.Data.List.Forall2
import Reckoner.Proofs.Expr.Presentation

/-!
# A reader accepts exactly its grammar

A plain document is read as a tree if it presents this tree and is not nested too deeply, and only
then (`Expr.ofJson_eq_ok_iff_presents`).  So it makes no difference how the nodes are written.

The reader goes two ways, which can follow each other from node to node.  If the tag of a node comes
first, the content is read as it is met; if it comes second, the content is stored first and read
from the store.  From the store a reader accepts more, such as a number for a tag, and it does not
count containers any more.  Neither shows in a plain document: all its tags are texts
(`Expr.Reads.presentsAs`), and what is not nested too deeply for the one way can be stored for the
other one (`Expr.Readable`).
-/

namespace Reckoner

open Json (Document Draft Numeral Reading Key)

/-- Whether a reader has room for so many containers inside each other. -/
def Json.Reading.Fits (r : Reading) (containers : Nat) : Prop :=
  match r with
  | .direct room => containers ≤ room
  | .stored => True

namespace Expr

/-! ## Tags -/

/-- A word is read as a kind if it is the name of the kind. -/
theorem named_eq_ok_iff {word : String} {kind : Kind} :
    Json.named Kind.vocabulary word = .ok kind ↔ word = kind.name := by
  constructor
  · intro h
    unfold Json.named at h
    split at h
    next found hfound =>
      -- What is found for a word is an entry of the vocabulary, and these are the names of the
      -- kinds.
      obtain ⟨before, after, hvocabulary, -⟩ := List.lookup_eq_some_iff.mp hfound
      have hmem : (word, found) ∈ Kind.vocabulary := by simp [hvocabulary]
      obtain ⟨kind', -, heq⟩ := List.mem_map.mp hmem
      obtain ⟨rfl, rfl⟩ := Prod.mk.inj heq
      rw [Except.ok.inj h]
    next => exact absurd h (Json.mismatch_ne_ok _ _)
  · rintro rfl
    exact named_name kind

/-- A text is read as a tag in the same way wherever it stands. -/
theorem readIdentifier_text {r : Reading} {word : String} :
    Json.readIdentifier Kind.vocabulary r (Document.text word).draft =
      Json.named Kind.vocabulary word := by
  cases r <;> rfl

/-- Likewise under a name. -/
theorem readChoice_text {r : Reading} {word : String} :
    Json.readChoice Kind.vocabulary r (Document.text word).draft =
      Json.named Kind.vocabulary word := by
  cases r <;> rfl

/-! ## What is read is presented -/

/-- A complete array of two drafts is an array of two documents. -/
theorem exists_pair_of_draft_eq {d : Document} {a b : Draft} (h : .array [a, b] none = d.draft) :
    ∃ x y, d = .array [x, y] ∧ a = x.draft ∧ b = y.draft := by
  cases d with
  | null | bool _ | number _ | text _ | object _ => simp [Document.draft] at h
  | array items =>
    rw [Document.draft] at h
    obtain ⟨hitems, -⟩ := Draft.array.inj h
    match items with
    | [] | [_] | _ :: _ :: _ :: _ => simp [Document.drafts] at hitems
    | [x, y] =>
      simp only [Document.drafts, List.cons.injEq, and_true] at hitems
      exact ⟨x, y, rfl, hitems.1, hitems.2⟩

/-- A complete object is an object, with the drafts of its members. -/
theorem exists_object_of_draft_eq {d : Document} {members : List (Key × Draft)}
    (h : .object members none = d.draft) :
    ∃ ms, d = .object ms ∧ members = Document.memberDrafts ms := by
  cases d with
  | null | bool _ | number _ | text _ | array _ => simp [Document.draft] at h
  | object ms =>
    rw [Document.draft] at h
    exact ⟨ms, rfl, (Draft.object.inj h).1⟩

/-- If all members have names that matter, they are the members that matter. -/
theorem Keeps.forall₂ {ms : List (String × Document)} {kept : List (Field × Draft)}
    (hnames : ∀ m ∈ ms, m.1 = "type" ∨ m.1 = "value")
    (h : Keeps (Document.memberDrafts ms) kept) :
    List.Forall₂ (fun m k => m.1 = k.1.name ∧ k.2 = m.2.draft) ms kept := by
  induction ms generalizing kept with
  | nil =>
    cases h
    exact .nil
  | cons m ms ih =>
    obtain ⟨name, value⟩ := m
    have hrest := fun m hm => hnames m (List.mem_cons_of_mem _ hm)
    rw [Document.memberDrafts] at h
    cases h with
    | kept field h => exact .cons ⟨rfl, rfl⟩ (ih hrest h)
    -- A member can only be passed over if its name is neither of the two.
    | passed hpassed h =>
      obtain ⟨name', hname, htype, hvalue, -⟩ := hpassed
      obtain rfl := Key.name.inj hname
      rcases hnames _ List.mem_cons_self with h | h
      · exact absurd h htype
      · exact absurd h hvalue

/-- Two members that matter are all members, if all members have names that matter. -/
theorem Keeps.exists_pair {ms : List (String × Document)} {f g : Field} {a b : Draft}
    (h : Keeps (Document.memberDrafts ms) [(f, a), (g, b)])
    (hnames : ∀ m ∈ ms, m.1 = "type" ∨ m.1 = "value") :
    ∃ x y, ms = [(f.name, x), (g.name, y)] ∧ a = x.draft ∧ b = y.draft := by
  have hkept := h.forall₂ hnames
  match ms with
  | [] | [_] | _ :: _ :: _ :: _ => simp at hkept
  | [(f', x), (g', y)] =>
    simp only [List.forall₂_cons, List.forall₂_nil_left_iff, and_true] at hkept
    obtain ⟨⟨rfl, rfl⟩, rfl, rfl⟩ := hkept
    exact ⟨x, y, rfl, rfl, rfl⟩

/-- Whatever is read of a plain document is what the document presents. -/
theorem Reads.presentsAs {r : Reading} {w : Wanted} {draft : Draft} {e : Expr}
    (h : Reads r w draft e) {d : Document} (hd : draft = d.draft) (hplain : Plain w d) :
    PresentsAs w d e := by
  -- Each rule takes the document apart, and its tag must be the word for a kind.
  induction h generalizing d with
  | number value =>
    rw [hd] at value
    obtain ⟨n, rfl, denotes⟩ := Json.readInt32_eq_ok_iff.mp value
    exact .number denotes
  | array _ choice _ ih =>
    obtain ⟨tag, content, rfl, rfl, rfl⟩ := exists_pair_of_draft_eq hd
    -- All tags are texts, so that none is read as a number.
    obtain ⟨word, rfl⟩ := hplain.tags tag .item
    rw [readIdentifier_text, named_eq_ok_iff] at choice
    subst choice
    have hcontent := ih rfl ((plain_node_iff (s := .array)).mp hplain)
    exact .tree (hcontent.node .array)
  | typeFirst _ keeps choice _ ih =>
    obtain ⟨ms, rfl, rfl⟩ := exists_object_of_draft_eq hd
    obtain ⟨tag, content, rfl, rfl, rfl⟩ := keeps.exists_pair (hplain.members ms .refl)
    obtain ⟨word, rfl⟩ := hplain.tags tag (.member (by simp [Field.name]))
    rw [readChoice_text, named_eq_ok_iff] at choice
    subst choice
    have hcontent := ih rfl ((plain_node_iff (s := .typeFirst)).mp hplain)
    exact .tree (hcontent.node .typeFirst)
  -- The content was stored before the tag was known, and is read from the store.
  | valueFirst _ keeps _ choice _ ih =>
    obtain ⟨ms, rfl, rfl⟩ := exists_object_of_draft_eq hd
    obtain ⟨content, tag, rfl, rfl, rfl⟩ := keeps.exists_pair (hplain.members ms .refl)
    obtain ⟨word, rfl⟩ := hplain.tags tag (.member (by simp [Field.name]))
    rw [readChoice_text, named_eq_ok_iff] at choice
    subst choice
    have hcontent := ih rfl ((plain_node_iff (s := .valueFirst)).mp hplain)
    exact .tree (hcontent.node .valueFirst)
  | power _ _ value ih =>
    obtain ⟨first, second, rfl, rfl, rfl⟩ := exists_pair_of_draft_eq hd
    obtain ⟨n, rfl, denotes⟩ := Json.readInt32_eq_ok_iff.mp value
    exact .power (presentsAs_tree_iff.mp (ih rfl hplain.first)) denotes
  | operands _ join _ _ ihl ihr =>
    obtain ⟨first, second, rfl, rfl, rfl⟩ := exists_pair_of_draft_eq hd
    have hleft := presentsAs_tree_iff.mp (ihl rfl hplain.first)
    have hright := presentsAs_tree_iff.mp (ihr rfl (hplain.second join))
    exact .operands join hleft hright

/-! ## What is presented is read -/

/-- A reader that has room for a container and what is in it can enter the container. -/
theorem exists_enter {r : Reading} {k : Nat} (h : r.Fits (1 + k)) :
    ∃ inner, r.enter = .ok inner ∧ inner.Fits k := by
  cases r with
  -- From the store containers are not counted.
  | stored => exact ⟨.stored, rfl, trivial⟩
  | direct room =>
    cases room with
    | zero => exact absurd h (by simp [Reading.Fits])
    | succ room => exact ⟨.direct room, rfl, by simp only [Reading.Fits] at h ⊢; omega⟩

/-- Whether a document is read as a tree, or what else is wanted, by every reader that has room for
it, and can be stored by it before. -/
def Readable (w : Wanted) (d : Document) (e : Expr) : Prop :=
  ∀ r : Reading, r.Fits (w.nest e) → Reads r w d.draft e ∧ r.keep d.draft = .ok ()

/-- A node can be stored if its content can. -/
theorem keep_node {r inner : Reading} (henter : r.enter = .ok inner) (s : Shape) (kind : Kind)
    {content : Document} (h : inner.keep content.draft = .ok ()) :
    r.keep (s.node kind content).draft = .ok () := by
  cases r with
  -- What is stored already is not stored again.
  | stored => rfl
  | direct room =>
    obtain ⟨left, rfl, rfl⟩ := Json.enter_direct_eq_ok_iff.mp henter
    rw [Reading.keep] at h
    cases s <;>
      simp [Shape.node, Document.draft, Document.memberDrafts, Document.drafts, Reading.keep,
        Json.store, Json.storeMembers, Json.storeItems, Json.keyName, h, Json.orFault,
        Draft.ending, bind, Except.bind]

/-- A pair can be stored if both items can. -/
theorem keep_array_pair {r inner : Reading} (henter : r.enter = .ok inner)
    {first second : Document} (hfirst : inner.keep first.draft = .ok ())
    (hsecond : inner.keep second.draft = .ok ()) :
    r.keep (Document.array [first, second]).draft = .ok () := by
  cases r with
  | stored => rfl
  | direct room =>
    obtain ⟨left, rfl, rfl⟩ := Json.enter_direct_eq_ok_iff.mp henter
    rw [Reading.keep] at hfirst hsecond
    simp [Document.draft, Document.drafts, Reading.keep, Json.store, Json.storeItems, hfirst,
      hsecond, Json.orFault, Draft.ending, bind, Except.bind]

/-- A number can be stored if it denotes something. -/
theorem keep_number {n : Numeral} {v : Int32} (h : n.Denotes v) (r : Reading) :
    r.keep (Document.number n).draft = .ok () := by
  cases r with
  | stored => rfl
  | direct room => simp [Document.draft, Reading.keep, Json.store, h.isSome_number?]

/-- A number is read wherever a constant is wanted. -/
theorem readable_number {n : Numeral} {v : Int32} (h : n.Denotes v) :
    Readable .constant (.number n) (.constant v) := by
  intro r _
  exact ⟨.number (Json.readInt32_eq_ok_iff.mpr ⟨n, rfl, h⟩), keep_number h r⟩

/-- A node is read in every form, whichever way its content is read then. -/
theorem Readable.node (s : Shape) (kind : Kind) {content : Document} {e : Expr}
    (h : Readable (wanted kind) content e) :
    Readable .tree (s.node kind content) (wrap kind e) := by
  intro r hr
  rw [nest_wrap] at hr
  obtain ⟨inner, henter, hinner⟩ := exists_enter hr
  obtain ⟨hreads, hkeep⟩ := h inner hinner
  refine ⟨?_, keep_node henter s kind hkeep⟩
  have hnamed : Json.named Kind.vocabulary kind.name = .ok kind := named_name kind
  have hchoice := (readChoice_text (r := inner)).trans hnamed
  cases s with
  | typeFirst => exact .typeFirst henter (.kept .type (.kept .value .nil)) hchoice hreads
  | valueFirst =>
    -- With the content in front, it is stored and then read from the store.
    have hstored := (h .stored trivial).1
    exact .valueFirst henter (.kept .value (.kept .type .nil)) hkeep hchoice hstored
  | array => exact .array henter (readIdentifier_text.trans hnamed) hreads

/-- A power is read if its base is. -/
theorem Readable.power {d : Document} {n : Numeral} {b : Expr} {v : Int32}
    (h : Readable .tree d b) (hn : n.Denotes v) :
    Readable (.pair .exponent) (.array [d, .number n]) (.exponent b v) := by
  intro r hr
  have hnest : (Wanted.pair .exponent).nest (.exponent b v) = 1 + b.nest := by
    simp only [Wanted.nest, nest]
    omega
  rw [hnest] at hr
  obtain ⟨inner, henter, hinner⟩ := exists_enter hr
  obtain ⟨hreads, hkeep⟩ := h inner hinner
  refine ⟨?_, keep_array_pair henter hkeep (keep_number hn inner)⟩
  exact .power henter hreads (Json.readInt32_eq_ok_iff.mpr ⟨n, rfl, hn⟩)

/-- Two operands are read if each of them is. -/
theorem Readable.operands (p : Pair) {node : Expr → Expr → Expr} (hp : p.join = some node)
    {d d' : Document} {l r : Expr} (hl : Readable .tree d l) (hr : Readable .tree d' r) :
    Readable (.pair p) (.array [d, d']) (node l r) := by
  intro reading hfits
  rw [nest_join hp] at hfits
  obtain ⟨inner, henter, hinner⟩ := exists_enter hfits
  -- There is room for the deeper operand, and so for both.
  have hboth : inner.Fits l.nest ∧ inner.Fits r.nest := by
    cases inner with
    | stored => exact ⟨trivial, trivial⟩
    | direct room => exact Nat.max_le.mp hinner
  obtain ⟨hleft, hkeepLeft⟩ := hl inner hboth.1
  obtain ⟨hright, hkeepRight⟩ := hr inner hboth.2
  exact ⟨.operands henter hp hleft hright, keep_array_pair henter hkeepLeft hkeepRight⟩

/-- A presentation is read as the tree that it presents. -/
theorem Presents.readable {d : Document} {e : Expr} (h : Presents d e) : Readable .tree d e := by
  induction h with
  | constant s denotes => exact Readable.node s .constant (readable_number denotes)
  | negate s _ ih => exact Readable.node s .negate ih
  | exponent s _ denotes ih => exact Readable.node s .exponent (ih.power denotes)
  | addition s _ _ ihl ihr =>
    exact Readable.node s .addition (Readable.operands .addition rfl ihl ihr)
  | multiplication s _ _ ihl ihr =>
    exact Readable.node s .multiplication (Readable.operands .multiplication rfl ihl ihr)

/-! ## Exact acceptance -/

/-- A document presents one tree at most. -/
theorem Presents.unique {d : Document} {e e' : Expr} (h : Presents d e) (h' : Presents d e') :
    e = e' := by
  -- Both are what is read from the store.
  have hread := readAs_eq_ok_iff.mpr (h.readable .stored trivial).1
  have hread' := readAs_eq_ok_iff.mpr (h'.readable .stored trivial).1
  rw [hread] at hread'
  exact Except.ok.inj hread'

/-- A plain document is read as a tree if it presents the tree and there is room for it. -/
theorem readAs_eq_ok_iff_presents {d : Document} (hd : Plain .tree d) {room : Nat} {e : Expr} :
    readAs (.direct room) .tree d.draft = .ok e ↔ Presents d e ∧ d.draft.nesting ≤ room := by
  constructor
  · -- Whatever was read had room.
    intro h
    have hreads := readAs_eq_ok_iff.mp h
    have hpresents := presentsAs_tree_iff.mp (hreads.presentsAs rfl hd)
    exact ⟨hpresents, hpresents.nesting_eq ▸ hreads.nest_le_room⟩
  · rintro ⟨hpresents, hroom⟩
    rw [hpresents.nesting_eq] at hroom
    exact readAs_eq_ok_iff.mpr (hpresents.readable (.direct room) hroom).1

/-- **A reader accepts exactly its grammar.**  Any text of a plain document is read with success if
and only if the document presents a tree and at most 127 containers are open in it at a time, and
the result is the tree that it presents.  So writing any of its nodes in another form, with `type`
and `value` in another order or as an array, has no effect on what is read. -/
theorem ofJson_eq_ok_iff_presents {d : Document} (hd : Plain .tree d) {text : String}
    (htext : Json.document? text = some d) :
    (∀ e, ofJson text = .ok e ↔ Presents d e ∧ d.draft.nesting ≤ 127) ∧
    (∀ e e', Presents d e → Presents d e' → e = e') ∧
    ∀ d' text', Reshaped .tree d d' → Json.document? text' = some d' →
      ∀ e, ofJson text' = .ok e ↔ ofJson text = .ok e := by
  have hexact : ∀ {d : Document} {text : String}, Plain .tree d → Json.document? text = some d →
      ∀ e, ofJson text = .ok e ↔ Presents d e ∧ d.draft.nesting ≤ 127 := by
    intro d text hd htext e
    exact (Json.readText_eq_ok_iff_of_document? htext).trans (readAs_eq_ok_iff_presents hd)
  refine ⟨hexact hd htext, fun e e' => Presents.unique, ?reshaped⟩
  case reshaped =>
    intro d' text' hreshaped htext' e
    rw [hexact (hreshaped.plain hd) htext', hexact hd htext, hreshaped.nesting_eq]
    -- Reshaping goes both ways, so that neither document presents more than the other one.
    have hpresents : Presents d' e ↔ Presents d e := by
      rw [← presentsAs_tree_iff, ← presentsAs_tree_iff]
      exact ⟨hreshaped.symm.presentsAs, hreshaped.presentsAs⟩
    rw [hpresents]

/-- A node whose content comes first, around a node that is written as an array. -/
theorem ofJson_mixed :
    ofJson "\x7b\"value\":[\"constant\",2],\"type\":\"negate\"\x7d" =
      .ok (negate (constant 2)) := by
  have hdenotes : (Numeral.ofInt 2).Denotes 2 := ⟨rfl, rfl, by decide, by decide⟩
  have hpresents : Presents (Shape.valueFirst.node .negate (Shape.array.node .constant (.int 2)))
      (negate (constant 2)) := .negate .valueFirst (.constant .array hdenotes)
  have hplain : Plain .tree
      (Shape.valueFirst.node .negate (Shape.array.node .constant (.int 2))) :=
    plain_node_iff.mpr (plain_node_iff.mpr (plain_number _))
  have htext := Json.document?_write
    (d := Shape.valueFirst.node .negate (Shape.array.node .constant (.int 2)))
    ⟨⟨trivial, Numeral.wellFormed_ofInt 2, trivial⟩, trivial, trivial⟩
  exact ((ofJson_eq_ok_iff_presents hplain htext).1 _).mpr ⟨hpresents, by decide⟩

end Expr
end Reckoner
