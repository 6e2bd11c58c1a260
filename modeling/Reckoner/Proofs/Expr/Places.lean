import Mathlib.Data.List.Nodup
import Reckoner.Proofs.Expr.Measure

/-!
# Places in a tree

A place says which operand to go to at every node on the way down from the root, so that equal
subtrees at different places can be told apart.  `Expr.innerPlaces` lists the places of the nodes
that are no constants: these and no others (`Expr.mem_innerPlaces_iff`), each once
(`Expr.nodup_innerPlaces`).  The root comes first, so that the tail of the list has the nodes below
it (`Expr.tail_innerPlaces`).
-/

namespace Reckoner

/-- The positions of the operands on the way from the root to a node. -/
abbrev Place := List Nat

namespace Expr

/-- The subtree at a place. -/
def at? (e : Expr) : Place → Option Expr
  | [] => some e
  | i :: place => (e.operands[i]?).bind fun o => o.at? place

/-- A way that ends at a subtree can be gone on with from there. -/
theorem at?_append {e d : Expr} {place : Place} (h : e.at? place = some d) (place' : Place) :
    e.at? (place ++ place') = d.at? place' := by
  induction place generalizing e with
  | nil =>
    cases h
    rfl
  | cons i place ih =>
    obtain ⟨o, ho, hd⟩ := Option.bind_eq_some_iff.mp h
    rw [List.cons_append, at?, ho, Option.bind_some]
    exact ih hd

/-- Whether a node that is no constant is at a place. -/
def HasInner (e : Expr) (place : Place) : Prop := ∃ d, e.at? place = some d ∧ d.kind ≠ .constant

/-- At the root there is the tree itself. -/
theorem hasInner_nil_iff {e : Expr} : e.HasInner [] ↔ e.kind ≠ .constant := by
  simp [HasInner, at?]

/-- A place behind an operand is a place in the operand. -/
theorem hasInner_cons_iff {e : Expr} {i : Nat} {place : Place} :
    e.HasInner (i :: place) ↔ ∃ o, e.operands[i]? = some o ∧ o.HasInner place := by
  simp only [HasInner, at?, Option.bind_eq_some_iff]
  constructor
  · rintro ⟨d, ⟨o, ho, hd⟩, hkind⟩
    exact ⟨o, ho, d, hd, hkind⟩
  · rintro ⟨o, ho, d, hd, hkind⟩
    exact ⟨d, ⟨o, ho, hd⟩, hkind⟩

/-! ## Nodes that are no constants -/

/-- Constants have no operands. -/
theorem operands_eq_nil {e : Expr} (h : e.kind = .constant) : e.operands = [] := by
  cases e with
  | constant v => rfl
  | _ => cases h

/-- The places of the nodes that are no constants. -/
def innerPlaces : Expr → List Place
  | .constant _ => []
  | .negate e => [] :: e.innerPlaces.map (0 :: ·)
  | .exponent b _ => [] :: b.innerPlaces.map (0 :: ·)
  | .addition l r => [] :: (l.innerPlaces.map (0 :: ·) ++ r.innerPlaces.map (1 :: ·))
  | .multiplication l r => [] :: (l.innerPlaces.map (0 :: ·) ++ r.innerPlaces.map (1 :: ·))

/-- In a constant no place is listed. -/
theorem innerPlaces_eq_nil {e : Expr} (h : e.kind = .constant) : e.innerPlaces = [] := by
  cases e with
  | constant v => rfl
  | _ => cases h

/-- In any other tree the root is listed first. -/
theorem innerPlaces_eq_cons {e : Expr} (h : e.kind ≠ .constant) :
    e.innerPlaces = [] :: e.innerPlaces.tail := by
  cases e with
  | constant v => exact absurd rfl h
  | _ => rfl

/-- The nodes below the root are those of the operands, one operand after the other. -/
theorem tail_innerPlaces (e : Expr) :
    e.innerPlaces.tail = e.operands.zipIdx.flatMap fun o => o.1.innerPlaces.map (o.2 :: ·) := by
  cases e <;> simp [innerPlaces, operands]

/-- One place is listed for every node that is no constant. -/
theorem length_innerPlaces (e : Expr) : e.innerPlaces.length = e.innerNodes := by
  induction e with
  | constant v => simp [innerPlaces]
  | negate e ih => simp [innerPlaces, ih]
  | exponent b n ih => simp [innerPlaces, ih]
  | addition l r ihl ihr => simp [innerPlaces, ihl, ihr]
  | multiplication l r ihl ihr => simp [innerPlaces, ihl, ihr]

/-- The root is not listed again. -/
theorem nil_notMem_tail_innerPlaces (e : Expr) : [] ∉ e.innerPlaces.tail := by
  simp [tail_innerPlaces]

/-- Below the root a place is listed if it is listed in its operand. -/
theorem cons_mem_tail_innerPlaces_iff {e : Expr} {i : Nat} {place : Place} :
    i :: place ∈ e.innerPlaces.tail ↔ ∃ o, e.operands[i]? = some o ∧ place ∈ o.innerPlaces := by
  simp only [tail_innerPlaces, List.mem_flatMap, Prod.exists, List.mk_mem_zipIdx_iff_getElem?,
    List.mem_map, List.cons.injEq]
  constructor
  · rintro ⟨o, j, ho, place', hplace', rfl, rfl⟩
    exact ⟨o, ho, hplace'⟩
  · rintro ⟨o, ho, hplace⟩
    exact ⟨o, i, ho, place, hplace, rfl, rfl⟩

/-- Exactly the nodes that are no constants are listed. -/
theorem mem_innerPlaces_iff {e : Expr} {place : Place} :
    place ∈ e.innerPlaces ↔ e.HasInner place := by
  induction e using induction_operands generalizing place with
  | step e ih =>
    -- A constant has no places, listed or not.
    by_cases hkind : e.kind = .constant
    · rw [innerPlaces_eq_nil hkind]
      cases place with
      | nil => simp [hasInner_nil_iff, hkind]
      | cons i place => simp [hasInner_cons_iff, operands_eq_nil hkind]
    · rw [innerPlaces_eq_cons hkind, List.mem_cons]
      cases place with
      | nil => simp [hasInner_nil_iff, hkind]
      | cons i place =>
        rw [cons_mem_tail_innerPlaces_iff, hasInner_cons_iff]
        simp only [reduceCtorEq, false_or]
        -- Behind an operand both sides ask the same of it.
        apply exists_congr
        intro o
        apply and_congr_right
        intro ho
        exact ih o (List.mem_of_getElem? ho)

/-- The tail of the list has the places below the root. -/
theorem mem_tail_innerPlaces_iff {e : Expr} {place : Place} :
    place ∈ e.innerPlaces.tail ↔ place ≠ [] ∧ e.HasInner place := by
  cases place with
  | nil => simp [nil_notMem_tail_innerPlaces]
  | cons i place => simp [cons_mem_tail_innerPlaces_iff, hasInner_cons_iff, mem_innerPlaces_iff]

/-- Every place is listed once: the first step tells the operands apart. -/
theorem nodup_innerPlaces (e : Expr) : e.innerPlaces.Nodup := by
  induction e using induction_operands with
  | step e ih =>
    by_cases hkind : e.kind = .constant
    · rw [innerPlaces_eq_nil hkind]
      exact List.nodup_nil
    · rw [innerPlaces_eq_cons hkind, List.nodup_cons]
      refine ⟨e.nil_notMem_tail_innerPlaces, ?_⟩
      rw [tail_innerPlaces, List.nodup_flatMap]
      constructor
      · rintro ⟨o, i⟩ ho
        have ho := List.mem_of_getElem? (List.mk_mem_zipIdx_iff_getElem?.mp ho)
        -- Within an operand no place is listed twice.
        exact (ih o ho).map (List.cons_injective)
      · -- Places in two operands start with different numbers.
        have hindices : (e.operands.zipIdx.map Prod.snd).Nodup := by
          rw [List.zipIdx_map_snd]
          exact List.nodup_range'
        refine (List.pairwise_map.mp hindices).imp ?_
        rintro ⟨o, i⟩ ⟨o', j⟩ hij place hplace hplace'
        obtain ⟨_, -, rfl⟩ := List.mem_map.mp hplace
        obtain ⟨_, -, heq⟩ := List.mem_map.mp hplace'
        exact hij (List.cons.inj heq).1.symm

end Expr
end Reckoner
