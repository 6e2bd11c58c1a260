import Mathlib.Logic.Function.Iterate
import Reckoner.Proofs.Expr.Reads

/-!
# Reading is stable under rewriting

Whatever text a tree has been read from, it is read again from its own compact text
(`Expr.ofJson_stable`).  For this the compact text must not be nested too deeply, and it is not: the
text that has been accepted is nested at least as deeply as the tree's document.

Every rule of `Expr.Reads` opens at least the containers that the document has in its place
(`Expr.Reads.nest_le_nesting`).  While the text is walked, each of them takes from the room that is
left (`Expr.Reads.nest_le_room`).  Content that is read from the store takes no room then, but there
must have been room for it when it was stored.
-/

namespace Reckoner
namespace Expr

open Json (Document Draft Reading nestingLimit)

/-! ## Nesting of documents and contents -/

/-- The nesting that has been counted for a tree is that of its document. -/
theorem nesting_document (e : Expr) : e.document.draft.nesting = e.nest := by
  induction e with
  | constant v => rfl
  | negate e ih =>
    simp [document, tagged, Document.draft, Document.memberDrafts, Draft.nesting,
      Draft.membersNesting, nest, ih]
  | exponent b n ih =>
    simp [document, tagged, Document.draft, Document.memberDrafts, Document.drafts, Draft.nesting,
      Draft.membersNesting, Draft.itemsNesting, nest, ih, Document.int32, Document.int]
    omega
  | addition l r ihl ihr | multiplication l r ihl ihr =>
    simp [document, tagged, Document.draft, Document.memberDrafts, Document.drafts, Draft.nesting,
      Draft.membersNesting, Draft.itemsNesting, nest, ihl, ihr]
    omega

theorem nest_pos (e : Expr) : 0 < e.nest := by
  cases e <;> simp only [nest] <;> omega

/-- How many containers are open at the deepest place of what a tree has been read from. -/
def Wanted.nest : Wanted → Expr → Nat
  | .tree, e => e.nest
  -- The object of the node is around its content.
  | .constant, e | .pair _, e => e.nest - 1

theorem Wanted.nest_tree (e : Expr) : Wanted.tree.nest e = e.nest := rfl

/-- A node is one container around its content. -/
theorem nest_wrap (kind : Kind) (e : Expr) :
    Wanted.tree.nest (wrap kind e) = 1 + (wanted kind).nest e := by
  have hpos := e.nest_pos
  cases kind <;> simp only [wrap, wanted, Wanted.nest, nest] <;> omega

/-- A pair of operands is one container around them. -/
theorem nest_join {p : Pair} {node : Expr → Expr → Expr} (hp : p.join = some node) (l r : Expr) :
    (Wanted.pair p).nest (node l r) = 1 + max l.nest r.nest := by
  cases p with
  | exponent => cases hp
  | addition | multiplication =>
    cases hp
    simp only [Wanted.nest, nest]
    omega

/-! ## Nesting of what has been read -/

/-- What has been read is nested at least as deeply as the document of the result. -/
theorem Reads.nest_le_nesting {r : Reading} {w : Wanted} {d : Draft} {e : Expr}
    (h : Reads r w d e) : w.nest e ≤ d.nesting := by
  induction h with
  | number value => exact Nat.zero_le _
  | array _ _ _ ih =>
    rw [nest_wrap, Draft.nesting, Draft.itemsNesting, Draft.itemsNesting]
    omega
  -- The object is around all its members, wherever the content stands among them.
  | typeFirst _ keeps _ _ ih =>
    have hcontent := nesting_lt_of_keeps keeps (List.mem_cons_of_mem _ List.mem_cons_self)
    rw [nest_wrap]
    omega
  | valueFirst _ keeps _ _ _ ih =>
    have hcontent := nesting_lt_of_keeps keeps List.mem_cons_self
    rw [nest_wrap]
    omega
  | power _ _ _ ih =>
    rw [Wanted.nest_tree] at ih
    simp only [Wanted.nest, nest, Draft.nesting, Draft.itemsNesting]
    omega
  | operands _ join _ _ ihl ihr =>
    rw [Wanted.nest_tree] at ihl ihr
    rw [nest_join join, Draft.nesting, Draft.itemsNesting, Draft.itemsNesting]
    omega

/-- What has been read while the text was walked has found room for the document of the result. -/
theorem Reads.nest_le_room {room : Nat} {w : Wanted} {d : Draft} {e : Expr}
    (h : Reads (.direct room) w d e) : w.nest e ≤ room := by
  generalize hr : Reading.direct room = r at h
  induction h generalizing room with
  | number value => exact Nat.zero_le _
  | array enter _ _ ih | typeFirst enter _ _ _ ih =>
    rw [← hr] at enter
    obtain ⟨left, rfl, rfl⟩ := Json.enter_direct_eq_ok_iff.mp enter
    have hcontent := ih rfl
    rw [nest_wrap]
    omega
  | valueFirst enter _ stored _ reads _ =>
    rw [← hr] at enter
    obtain ⟨left, rfl, rfl⟩ := Json.enter_direct_eq_ok_iff.mp enter
    -- There was room for the content when it was stored.
    have hcontent := Nat.le_trans reads.nest_le_nesting (Json.nesting_le_of_store stored)
    rw [nest_wrap]
    omega
  | power enter _ _ ih =>
    rw [← hr] at enter
    obtain ⟨left, rfl, rfl⟩ := Json.enter_direct_eq_ok_iff.mp enter
    have hbase := ih rfl
    rw [Wanted.nest_tree] at hbase
    simp only [Wanted.nest, nest]
    omega
  | operands enter join _ _ ihl ihr =>
    rw [← hr] at enter
    obtain ⟨left, rfl, rfl⟩ := Json.enter_direct_eq_ok_iff.mp enter
    have hleft := ihl rfl
    have hright := ihr rfl
    rw [Wanted.nest_tree] at hleft hright
    rw [nest_join join]
    omega

/-! ## Writing and reading again -/

/-- No text is read as a tree that would have to be nested more deeply than a reader accepts. -/
theorem nest_le_of_ofJson {text : String} {e : Expr} (h : ofJson text = .ok e) :
    e.nest ≤ nestingLimit := by
  obtain ⟨draft, rest, -, hread, -⟩ := Json.readText_eq_ok_iff.mp h
  exact (readAs_eq_ok_iff.mp hread).nest_le_room

/-- A tree that is not nested too deeply is read from its compact text. -/
theorem ofJson_json_of_nest_le {e : Expr} (h : e.nest ≤ nestingLimit) : ofJson e.json = .ok e := by
  apply (Json.readText_eq_ok_iff_of_document? (Json.document?_write e.wellFormed_document)).mpr
  rw [ofDraft, readWithin e nestingLimit, if_pos h]

/-- Writes a tree that has been read, and reads it again. -/
def reload (result : Except Json.Problem Expr) : Except Json.Problem Expr :=
  result.bind fun e => ofJson e.json

theorem reload_ofJson (text : String) : reload (ofJson text) = ofJson text := by
  cases h : ofJson text with
  | error problem => rfl
  | ok e => exact ofJson_json_of_nest_le (nest_le_of_ofJson h)

/-- **Reading is stable under rewriting**: a tree that has been read from any text is read from its
own compact text, which is not nested too deeply.  The trees that can be read at all are those whose
compact text is not nested too deeply, and reading and writing them over and over changes
nothing. -/
theorem ofJson_stable :
    (∀ text e, ofJson text = .ok e →
      ofJson e.json = .ok e ∧ e.document.draft.nesting ≤ nestingLimit) ∧
    (∀ e : Expr, (∃ text, ofJson text = .ok e) ↔ e.document.draft.nesting ≤ nestingLimit) ∧
    ∀ text n, reload^[n] (ofJson text) = ofJson text := by
  refine ⟨?again, ?range, ?repeatedly⟩
  case again =>
    intro text e h
    have hnest := nest_le_of_ofJson h
    exact ⟨ofJson_json_of_nest_le hnest, by rwa [nesting_document]⟩
  case range =>
    intro e
    rw [nesting_document]
    constructor
    · rintro ⟨text, h⟩
      exact nest_le_of_ofJson h
    · -- Its own compact text is one from which it is read.
      intro h
      exact ⟨e.json, ofJson_json_of_nest_le h⟩
  case repeatedly =>
    intro text n
    exact Function.iterate_fixed (reload_ofJson text) n

end Expr
end Reckoner
