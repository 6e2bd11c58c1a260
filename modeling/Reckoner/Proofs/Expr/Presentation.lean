import Reckoner.Proofs.Expr.Stability
import Reckoner.Proofs.Json.Integer

/-!
# Documents that present trees

The documents of a tree, in every form in which it can be written: each node is an object whose
members `type` and `value` come in either order, or an array of the two (`Expr.Shape`).
`Expr.Presents` is the grammar of these documents; it has one rule for each kind of node, with the
shape of the node left open.

Nothing depends on the shapes.  A document that is reshaped at any of its nodes presents the same
tree (`Expr.Reshaped.presentsAs`), is nested as deeply (`Expr.Reshaped.nesting_eq`), and has no
other members and tags than before (`Expr.Reshaped.plain`).
-/

namespace Reckoner
namespace Expr

open Json (Document Draft Numeral)

/-! ## The grammar -/

/-- The forms in which a node can be written. -/
inductive Shape where
  | typeFirst
  | valueFirst
  | array

/-- The document of a node in a given form. -/
def Shape.node (s : Shape) (kind : Kind) (content : Document) : Document :=
  match s with
  | .typeFirst => .object [("type", .text kind.name), ("value", content)]
  | .valueFirst => .object [("value", content), ("type", .text kind.name)]
  | .array => .array [.text kind.name, content]

/-- Whether a document presents a tree. -/
inductive Presents : Document → Expr → Prop where
  | constant (s : Shape) {n : Numeral} {v : Int32} :
      n.Denotes v → Presents (s.node .constant (.number n)) (.constant v)
  | negate (s : Shape) {d : Document} {e : Expr} :
      Presents d e → Presents (s.node .negate d) (.negate e)
  | exponent (s : Shape) {d : Document} {n : Numeral} {b : Expr} {v : Int32} :
      Presents d b → n.Denotes v →
      Presents (s.node .exponent (.array [d, .number n])) (.exponent b v)
  | addition (s : Shape) {d d' : Document} {l r : Expr} :
      Presents d l → Presents d' r → Presents (s.node .addition (.array [d, d'])) (.addition l r)
  | multiplication (s : Shape) {d d' : Document} {l r : Expr} :
      Presents d l → Presents d' r →
      Presents (s.node .multiplication (.array [d, d'])) (.multiplication l r)

/-- Whether a document presents what is wanted: a tree, or the content of a node. -/
inductive PresentsAs : Wanted → Document → Expr → Prop where
  | tree {d : Document} {e : Expr} : Presents d e → PresentsAs .tree d e
  | number {n : Numeral} {v : Int32} : n.Denotes v → PresentsAs .constant (.number n) (.constant v)
  | power {d : Document} {n : Numeral} {b : Expr} {v : Int32} :
      Presents d b → n.Denotes v →
      PresentsAs (.pair .exponent) (.array [d, .number n]) (.exponent b v)
  | operands {p : Pair} {node : Expr → Expr → Expr} {d d' : Document} {l r : Expr}
      (join : p.join = some node) :
      Presents d l → Presents d' r → PresentsAs (.pair p) (.array [d, d']) (node l r)

/-- A tree is wanted of a document that presents one. -/
theorem presentsAs_tree_iff {d : Document} {e : Expr} : PresentsAs .tree d e ↔ Presents d e := by
  constructor
  · rintro ⟨h⟩
    exact h
  · exact .tree

/-- The rules of the grammar are one rule: a node presents its content under its tag. -/
theorem PresentsAs.node (s : Shape) {kind : Kind} {content : Document} {e : Expr}
    (h : PresentsAs (wanted kind) content e) : Presents (s.node kind content) (wrap kind e) := by
  cases kind with
  | constant =>
    cases h with
    | number denotes => exact .constant s denotes
  | negate =>
    cases h with
    | tree presents => exact .negate s presents
  | exponent =>
    cases h with
    | power presents denotes => exact .exponent s presents denotes
    -- A power is no node with two trees as its operands.
    | operands join => cases join
  | addition =>
    cases h with
    | operands join left right =>
      cases join
      exact .addition s left right
  | multiplication =>
    cases h with
    | operands join left right =>
      cases join
      exact .multiplication s left right

/-- Conversely what presents a tree is a node, in some form, with a content. -/
theorem Presents.exists_node {d : Document} {e : Expr} (h : Presents d e) :
    ∃ (s : Shape) (kind : Kind) (content : Document) (inner : Expr),
      s.node kind content = d ∧ wrap kind inner = e ∧ PresentsAs (wanted kind) content inner := by
  cases h with
  | constant s denotes => exact ⟨s, .constant, _, _, rfl, rfl, .number denotes⟩
  | negate s presents => exact ⟨s, .negate, _, _, rfl, rfl, .tree presents⟩
  | exponent s presents denotes =>
    exact ⟨s, .exponent, _, _, rfl, rfl, .power presents denotes⟩
  | addition s left right => exact ⟨s, .addition, _, _, rfl, rfl, .operands rfl left right⟩
  | multiplication s left right =>
    exact ⟨s, .multiplication, _, _, rfl, rfl, .operands rfl left right⟩

/-- A document is a node in at most one way. -/
theorem Shape.node_inj {s s' : Shape} {kind kind' : Kind} {c c' : Document}
    (h : s.node kind c = s'.node kind' c') : kind = kind' ∧ c = c' := by
  cases s <;> cases s' <;> simp [Shape.node] at h
  all_goals exact ⟨Kind.name_injective (by simp [h]), by simp [h]⟩

/-! ## Nesting -/

/-- A node is nested one deeper than its content, in each of its forms. -/
theorem Shape.nesting_node (s : Shape) (kind : Kind) (content : Document) :
    (s.node kind content).draft.nesting = 1 + content.draft.nesting := by
  cases s <;>
    simp [Shape.node, Document.draft, Document.memberDrafts, Document.drafts, Draft.nesting,
      Draft.membersNesting, Draft.itemsNesting]

/-- A pair is nested one deeper than the deeper one of its items. -/
theorem nesting_array_pair (first second : Document) :
    (Document.array [first, second]).draft.nesting =
      1 + max first.draft.nesting second.draft.nesting := by
  simp [Document.draft, Document.drafts, Draft.nesting, Draft.itemsNesting]

/-- All presentations of a tree are nested as deeply as its own document. -/
theorem Presents.nesting_eq {d : Document} {e : Expr} (h : Presents d e) :
    d.draft.nesting = e.nest := by
  have hnumber : ∀ n : Numeral, (Document.number n).draft.nesting = 0 := fun n => rfl
  induction h with
  | constant s _ => rw [s.nesting_node, hnumber, nest]
  | negate s _ ih => rw [s.nesting_node, ih, nest]
  -- The pair is a container of its own within that of the node.
  | exponent s _ _ ih =>
    rw [s.nesting_node, nesting_array_pair, hnumber, ih, nest]
    omega
  | addition s _ _ ihl ihr | multiplication s _ _ ihl ihr =>
    rw [s.nesting_node, nesting_array_pair, ihl, ihr, nest]
    omega

/-! ## Documents with nothing but nodes -/

/-- The documents that a document consists of. -/
inductive Part (d : Document) : Document → Prop where
  | refl : Part d d
  | item {item : Document} {items : List Document} :
      item ∈ items → Part d item → Part d (.array items)
  | member {name : String} {value : Document} {members : List (String × Document)} :
      (name, value) ∈ members → Part d value → Part d (.object members)

/-- The documents that stand where a tag is read: under `type`, and first in an array of two, in
every node that a document has if it is read as what is wanted. -/
inductive Tag (t : Document) : Wanted → Document → Prop where
  | member {members : List (String × Document)} :
      ("type", t) ∈ members → Tag t .tree (.object members)
  | item {content : Document} : Tag t .tree (.array [t, content])
  -- The tags in the content of a node.
  | memberContent {kind : Kind} {content : Document} {members : List (String × Document)} :
      ("type", .text kind.name) ∈ members → ("value", content) ∈ members →
      Tag t (wanted kind) content → Tag t .tree (.object members)
  | itemContent {kind : Kind} {content : Document} :
      Tag t (wanted kind) content → Tag t .tree (.array [.text kind.name, content])
  -- The tags in a pair.
  | first {p : Pair} {first second : Document} :
      Tag t .tree first → Tag t (.pair p) (.array [first, second])
  | second {p : Pair} {node : Expr → Expr → Expr} {first second : Document}
      (join : p.join = some node) : Tag t .tree second → Tag t (.pair p) (.array [first, second])

/-- A document in which all objects have the members of nodes only, and all tags are texts. -/
structure Plain (w : Wanted) (d : Document) : Prop where
  members : ∀ ms, Part (.object ms) d → ∀ m ∈ ms, m.1 = "type" ∨ m.1 = "value"
  tags : ∀ t, Tag t w d → ∃ word, t = .text word

/-- The parts of a node are the node, its tag and the parts of its content. -/
theorem part_node_iff {d : Document} {s : Shape} {kind : Kind} {content : Document} :
    Part d (s.node kind content) ↔
      d = s.node kind content ∨ d = .text kind.name ∨ Part d content := by
  have htext : ∀ {word : String}, Part d (.text word) → d = .text word := by
    intro word h
    cases h
    rfl
  constructor
  · intro h
    cases s with
    | typeFirst | valueFirst =>
      cases h with
      | refl => exact .inl rfl
      | member hmem hpart =>
        -- One of the two members is the tag, and the other one the content.
        simp only [List.mem_cons, Prod.mk.injEq, List.not_mem_nil, or_false] at hmem
        rcases hmem with ⟨-, rfl⟩ | ⟨-, rfl⟩
        all_goals first | exact .inr (.inr hpart) | exact .inr (.inl (htext hpart))
    | array =>
      cases h with
      | refl => exact .inl rfl
      | item hmem hpart =>
        simp only [List.mem_cons, List.not_mem_nil, or_false] at hmem
        rcases hmem with rfl | rfl
        · exact .inr (.inl (htext hpart))
        · exact .inr (.inr hpart)
  · rintro (rfl | rfl | h)
    · exact .refl
    · -- Where the tag and the content stand depends on the form.
      cases s with
      | typeFirst => exact .member List.mem_cons_self .refl
      | valueFirst => exact .member (List.mem_cons_of_mem _ List.mem_cons_self) .refl
      | array => exact .item List.mem_cons_self .refl
    · cases s with
      | typeFirst => exact .member (List.mem_cons_of_mem _ List.mem_cons_self) h
      | valueFirst => exact .member List.mem_cons_self h
      | array => exact .item (List.mem_cons_of_mem _ List.mem_cons_self) h

/-- The tags in a node are its own and those in its content. -/
theorem tag_node_iff {t : Document} {s : Shape} {kind : Kind} {content : Document} :
    Tag t .tree (s.node kind content) ↔ t = .text kind.name ∨ Tag t (wanted kind) content := by
  constructor
  · intro h
    -- The node is compared with the document of each rule, whose members can be any.
    generalize hd : s.node kind content = d at h
    cases h with
    | member hmem =>
      cases s <;> simp [Shape.node] at hd
      all_goals
        subst hd
        exact .inl (by simpa using hmem)
    | item =>
      cases s <;> simp [Shape.node] at hd
      exact .inl hd.1.symm
    -- A tag in the content: as there is one member of each name, it is the content of this node.
    | memberContent htype hvalue htag =>
      cases s <;> simp [Shape.node] at hd
      all_goals
        subst hd
        simp at htype hvalue
        rw [Kind.name_injective htype, hvalue] at htag
        exact .inr htag
    | itemContent htag =>
      cases s <;> simp [Shape.node] at hd
      rw [← Kind.name_injective hd.1, ← hd.2] at htag
      exact .inr htag
  · rintro (rfl | h)
    · cases s with
      | typeFirst => exact .member List.mem_cons_self
      | valueFirst => exact .member (List.mem_cons_of_mem _ List.mem_cons_self)
      | array => exact .item
    · cases s with
      | typeFirst =>
        exact .memberContent List.mem_cons_self (List.mem_cons_of_mem _ List.mem_cons_self) h
      | valueFirst =>
        exact .memberContent (List.mem_cons_of_mem _ List.mem_cons_self) List.mem_cons_self h
      | array => exact .itemContent h

/-- A node is plain if its content is. -/
theorem plain_node_iff {s : Shape} {kind : Kind} {content : Document} :
    Plain .tree (s.node kind content) ↔ Plain (wanted kind) content := by
  constructor
  · intro h
    constructor
    · intro ms hpart
      exact h.members ms (part_node_iff.mpr (.inr (.inr hpart)))
    · intro t htag
      exact h.tags t (tag_node_iff.mpr (.inr htag))
  · intro h
    constructor
    · intro ms hpart
      -- The node itself has the members of nodes, and its tag is no object.
      rcases part_node_iff.mp hpart with hnode | htext | hpart
      · cases s <;> simp [Shape.node] at hnode
        all_goals
          subst hnode
          simp
      · cases htext
      · exact h.members ms hpart
    · intro t htag
      rcases tag_node_iff.mp htag with rfl | htag
      · exact ⟨_, rfl⟩
      · exact h.tags t htag

/-- The parts of a pair are the pair and the parts of its items. -/
theorem part_pair_iff {d first second : Document} :
    Part d (.array [first, second]) ↔
      d = .array [first, second] ∨ Part d first ∨ Part d second := by
  constructor
  · intro h
    cases h with
    | refl => exact .inl rfl
    | item hmem hpart =>
      simp only [List.mem_cons, List.not_mem_nil, or_false] at hmem
      rcases hmem with rfl | rfl
      · exact .inr (.inl hpart)
      · exact .inr (.inr hpart)
  · rintro (rfl | h | h)
    · exact .refl
    · exact .item List.mem_cons_self h
    · exact .item (List.mem_cons_of_mem _ List.mem_cons_self) h

/-- The first item of a plain pair is plain. -/
theorem Plain.first {p : Pair} {first second : Document}
    (h : Plain (.pair p) (.array [first, second])) : Plain .tree first where
  members := fun ms hpart => h.members ms (part_pair_iff.mpr (.inr (.inl hpart)))
  tags := fun t htag => h.tags t (.first htag)

/-- So is the second one, if it is read as a tree. -/
theorem Plain.second {p : Pair} {node : Expr → Expr → Expr} (hp : p.join = some node)
    {first second : Document} (h : Plain (.pair p) (.array [first, second])) :
    Plain .tree second where
  members := fun ms hpart => h.members ms (part_pair_iff.mpr (.inr (.inr hpart)))
  tags := fun t htag => h.tags t (.second hp htag)

/-- A number has neither members nor tags. -/
theorem plain_number (n : Numeral) : Plain .constant (.number n) where
  members := by
    intro ms h
    cases h
  tags := by
    intro t h
    cases h

/-! ## Reshaping -/

/-- Whether a document comes from another one by writing some of its nodes in another form. -/
inductive Reshaped : Wanted → Document → Document → Prop where
  | refl (w : Wanted) (d : Document) : Reshaped w d d
  | node (s s' : Shape) {kind : Kind} {content content' : Document} :
      Reshaped (wanted kind) content content' →
      Reshaped .tree (s.node kind content) (s'.node kind content')
  -- The nodes in a pair.
  | base {first first' : Document} (second : Document) :
      Reshaped .tree first first' →
      Reshaped (.pair .exponent) (.array [first, second]) (.array [first', second])
  | operands {p : Pair} {node : Expr → Expr → Expr} {first first' second second' : Document}
      (join : p.join = some node) :
      Reshaped .tree first first' → Reshaped .tree second second' →
      Reshaped (.pair p) (.array [first, second]) (.array [first', second'])

/-- What was written in another form can be written back. -/
theorem Reshaped.symm {w : Wanted} {d d' : Document} (h : Reshaped w d d') : Reshaped w d' d := by
  induction h with
  | refl w d => exact .refl w d
  | node s s' _ ih => exact .node s' s ih
  | base second _ ih => exact .base second ih
  | operands join _ _ ihl ihr => exact .operands join ihl ihr

/-- A reshaped document presents the same. -/
theorem Reshaped.presentsAs {w : Wanted} {d d' : Document} (h : Reshaped w d d') {e : Expr}
    (he : PresentsAs w d e) : PresentsAs w d' e := by
  induction h generalizing e with
  | refl w d => exact he
  | node s s' _ ih =>
    -- The node is presented in its shape, and its content in the other one as well.
    obtain ⟨s₁, kind, content, inner, hnode, rfl, hcontent⟩ :=
      (presentsAs_tree_iff.mp he).exists_node
    obtain ⟨rfl, rfl⟩ := Shape.node_inj hnode
    exact .tree ((ih hcontent).node s')
  | base second _ ih =>
    cases he with
    | power presents denotes => exact .power (presentsAs_tree_iff.mp (ih (.tree presents))) denotes
    -- The content of a power is read as a power only.
    | operands join => cases join
  | operands join _ _ ihl ihr =>
    cases he with
    -- And that of another node is not read as a power.
    | power => cases join
    | operands join left right =>
      have hleft := presentsAs_tree_iff.mp (ihl (.tree left))
      have hright := presentsAs_tree_iff.mp (ihr (.tree right))
      exact .operands join hleft hright

/-- Reshaping does not change how deeply a document is nested. -/
theorem Reshaped.nesting_eq {w : Wanted} {d d' : Document} (h : Reshaped w d d') :
    d'.draft.nesting = d.draft.nesting := by
  induction h with
  | refl w d => rfl
  | node s s' _ ih => rw [s.nesting_node, s'.nesting_node, ih]
  | base second _ ih => rw [nesting_array_pair, nesting_array_pair, ih]
  | operands join _ _ ihl ihr => rw [nesting_array_pair, nesting_array_pair, ihl, ihr]

/-- Reshaping brings in no other members and no other tags. -/
theorem Reshaped.plain {w : Wanted} {d d' : Document} (h : Reshaped w d d') (hd : Plain w d) :
    Plain w d' := by
  induction h with
  | refl w d => exact hd
  | node s s' _ ih => exact plain_node_iff.mpr (ih (plain_node_iff.mp hd))
  | base second _ ih =>
    have hfirst := ih hd.first
    constructor
    · intro ms hpart
      -- A pair is no object; what is in it is in one of its items.
      rcases part_pair_iff.mp hpart with heq | hpart | hpart
      · cases heq
      · exact hfirst.members ms hpart
      · exact hd.members ms (part_pair_iff.mpr (.inr (.inr hpart)))
    · intro t htag
      cases htag with
      | first htag => exact hfirst.tags t htag
      | second join => cases join
  | operands join _ _ ihl ihr =>
    have hfirst := ihl hd.first
    have hsecond := ihr (hd.second join)
    constructor
    · intro ms hpart
      -- Here both items may have been reshaped.
      rcases part_pair_iff.mp hpart with heq | hpart | hpart
      · cases heq
      · exact hfirst.members ms hpart
      · exact hsecond.members ms hpart
    · intro t htag
      cases htag with
      | first htag => exact hfirst.tags t htag
      | second _ htag => exact hsecond.tags t htag

end Expr
end Reckoner
