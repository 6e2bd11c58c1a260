import Reckoner.Proofs.Expr.Subtrees
import Reckoner.Proofs.Fold.Success
import Reckoner.Expr.Size

/-!
# Listings of nodes

`Expr.listing` lists the nodes of a tree in post-order like a program without jumps: the operands
of a node are given as the positions in the list at which these very operands stand.  Looked up in
the list of all subtrees, the positions give the operands themselves (`Expr.listing_postorder`).
-/

namespace Reckoner

/-! ## Operands by position -/

namespace Node

variable {α β : Type}

/-- A node whose operands are looked up, if they are all there. -/
def resolve (look : α → Option β) : Node α → Option (Node β)
  | .constant v => some (.constant v)
  | .negate i => (look i).map .negate
  | .exponent i n => (look i).map (.exponent · n)
  | .addition i j => (look i).bind fun a => (look j).map (.addition a)
  | .multiplication i j => (look i).bind fun a => (look j).map (.multiplication a)

end Node

/-- Whether everything that stands in a list is found at its position; nothing is asked of the
positions of what is missing. -/
def Finds {β : Type} (look : Nat → Option β) (entries : List (Option β)) : Prop :=
  ∀ i b, entries[i]? = some (some b) → look i = some b

/-- What is found in a longer list is found in what it starts with. -/
theorem Finds.left {β : Type} {look : Nat → Option β} {entries more : List (Option β)}
    (h : Finds look (entries ++ more)) : Finds look entries := by
  intro i b hi
  apply h
  obtain ⟨hlt, -⟩ := List.getElem?_eq_some_iff.mp hi
  rw [List.getElem?_append_left hlt, hi]

namespace Expr

/-- The position of the root, which comes last, if the listing starts at a given position. -/
def rootPosition (start : Nat) (e : Expr) : Nat := start + (e.postorder.length - 1)

/-- The nodes in post-order, with the positions of their operands, from a given position on. -/
def listing (start : Nat) : Expr → List (Node Nat)
  | .constant v => [.constant v]
  | .negate e => listing start e ++ [.negate (rootPosition start e)]
  | .exponent b n => listing start b ++ [.exponent (rootPosition start b) n]
  | .addition l r =>
    listing start l ++ listing (start + l.postorder.length) r ++
      [.addition (rootPosition start l) (rootPosition (start + l.postorder.length) r)]
  | .multiplication l r =>
    listing start l ++ listing (start + l.postorder.length) r ++
      [.multiplication (rootPosition start l) (rootPosition (start + l.postorder.length) r)]

theorem length_listing (start : Nat) (e : Expr) :
    (e.listing start).length = e.postorder.length := by
  induction e generalizing start <;> simp [listing, postorder, *]

theorem postorder_eq_append (e : Expr) : ∃ below, e.postorder = below ++ [e] := by
  cases e with
  | constant v => exact ⟨[], rfl⟩
  | negate e => exact ⟨e.postorder, rfl⟩
  | exponent b n => exact ⟨b.postorder, rfl⟩
  | addition l r => exact ⟨l.postorder ++ r.postorder, rfl⟩
  | multiplication l r => exact ⟨l.postorder ++ r.postorder, rfl⟩

theorem size_eq_length_postorder (e : Expr) : e.size = e.postorder.length := by
  have hvalue : e.value sizeAlgebra = e.postorder.length := by
    induction e with
    | constant v => rfl
    | negate e ih => simp [value_negate, sizeAlgebra, postorder, ih]
    | exponent b n ih => simp [value_exponent, sizeAlgebra, postorder, ih]
    | addition l r ihl ihr =>
      simp [value_addition, sizeAlgebra, postorder, ihl, ihr, Nat.add_assoc]
    | multiplication l r ihl ihr =>
      simp [value_multiplication, sizeAlgebra, postorder, ihl, ihr, Nat.add_assoc]
  rw [size, valueStack_eq_value, hvalue]

/-! ## The operands of a listing -/

/-- Among the subtrees a tree is found at the position of its root. -/
private theorem look_rootPosition {look : Nat → Option Expr} {before : List Expr} {e : Expr}
    (hlook : Finds look ((before ++ e.postorder).map some)) :
    look (rootPosition before.length e) = some e := by
  apply hlook
  obtain ⟨below, h⟩ := postorder_eq_append e
  rw [rootPosition, h]
  simp

/-- Whether the nodes of a tree find their own operands, wherever the tree stands among the
subtrees. -/
private def FindsOperands (look : Nat → Option Expr) (e : Expr) : Prop :=
  ∀ before : List Expr, Finds look ((before ++ e.postorder).map some) →
    (e.listing before.length).map (Node.resolve look) = e.postorder.map fun d => some d.root

/-- With two operands, the subtrees of the left one come before those of the right one. -/
private theorem FindsOperands.pair {look : Nat → Option Expr} {l r : Expr}
    (hl : FindsOperands look l) (hr : FindsOperands look r) {before : List Expr} {e : Expr}
    (hlook : Finds look ((before ++ (l.postorder ++ r.postorder ++ [e])).map some)) :
    (l.listing before.length ++ r.listing (before.length + l.postorder.length)).map
        (Node.resolve look) = (l.postorder ++ r.postorder).map (fun d => some d.root) ∧
      look (rootPosition before.length l) = some l ∧
      look (rootPosition (before.length + l.postorder.length) r) = some r := by
  rw [← List.append_assoc, List.map_append, ← List.append_assoc] at hlook
  -- What is found among all subtrees is found among those of the operands.
  have hright := hlook.left
  have hleft : Finds look ((before ++ l.postorder).map some) := by
    rw [List.map_append] at hright
    exact hright.left
  have hroot := look_rootPosition hright
  have hoperand := hr (before ++ l.postorder) hright
  rw [List.length_append] at hroot hoperand
  refine ⟨?_, look_rootPosition hleft, hroot⟩
  rw [List.map_append, hl before hleft, hoperand, List.map_append]

private theorem findsOperands (look : Nat → Option Expr) (e : Expr) : FindsOperands look e := by
  intro before hlook
  -- The right operand stands behind the left one, so that the place of a tree is arbitrary.
  induction e generalizing before with
  | constant v => rfl
  | negate e ih =>
    rw [postorder, ← List.append_assoc, List.map_append] at hlook
    rw [listing, List.map_append, ih before hlook.left, postorder, List.map_append]
    simp [Node.resolve, look_rootPosition hlook.left, root]
  | exponent b n ih =>
    rw [postorder, ← List.append_assoc, List.map_append] at hlook
    rw [listing, List.map_append, ih before hlook.left, postorder, List.map_append]
    simp [Node.resolve, look_rootPosition hlook.left, root]
  | addition l r ihl ihr =>
    obtain ⟨hbelow, hleft, hright⟩ := FindsOperands.pair ihl ihr hlook
    rw [listing, List.map_append, hbelow, postorder, List.map_append]
    simp [Node.resolve, hleft, hright, root]
  | multiplication l r ihl ihr =>
    obtain ⟨hbelow, hleft, hright⟩ := FindsOperands.pair ihl ihr hlook
    rw [listing, List.map_append, hbelow, postorder, List.map_append]
    simp [Node.resolve, hleft, hright, root]

/-- The positions of a listing are those of the operands themselves. -/
theorem listing_postorder (e : Expr) :
    (e.listing 0).map (Node.resolve (e.postorder[·]?)) = e.postorder.map fun d => some d.root := by
  apply findsOperands _ e []
  intro i d h
  simpa using h

example : (addition (.constant 1) (.negate (.constant 2))).listing 0 =
    [.constant 1, .constant 2, .negate 1, .addition 0 2] := rfl

end Expr
end Reckoner
