import Mathlib.Order.Bounds.Basic
import Reckoner.Proofs.Expr.Subtrees

/-!
# Paths through a tree

A path leads from the root of a tree to one of its constants.  `Expr.deepest p` finds the greatest
number of subtrees with the property `p` on a path by recursion on the tree, without listing the
paths (`Expr.isGreatest_deepest`).
-/

namespace Reckoner
namespace Expr

/-- The paths from the root to the constants, as the subtrees on the way. -/
def paths : Expr → List (List Expr)
  | .constant v => [[.constant v]]
  | .negate e => e.paths.map (.negate e :: ·)
  | .exponent b n => b.paths.map (.exponent b n :: ·)
  | .addition l r => (l.paths ++ r.paths).map (.addition l r :: ·)
  | .multiplication l r => (l.paths ++ r.paths).map (.multiplication l r :: ·)

/-- The greatest number of subtrees with a property on a path. -/
def deepest (p : Expr → Bool) : Expr → Nat
  | .constant v => if p (.constant v) then 1 else 0
  | .negate e => e.deepest p + if p (.negate e) then 1 else 0
  | .exponent b n => b.deepest p + if p (.exponent b n) then 1 else 0
  | .addition l r => max (l.deepest p) (r.deepest p) + if p (.addition l r) then 1 else 0
  | .multiplication l r =>
    max (l.deepest p) (r.deepest p) + if p (.multiplication l r) then 1 else 0

/-- The numbers of subtrees with a property on some paths. -/
def pathCounts (p : Expr → Bool) (paths : List (List Expr)) : Set Nat :=
  {k | ∃ path ∈ paths, path.countP p = k}

theorem pathCounts_append (p : Expr → Bool) (paths paths' : List (List Expr)) :
    pathCounts p (paths ++ paths') = pathCounts p paths ∪ pathCounts p paths' := by
  ext k
  simp only [pathCounts, List.mem_append, or_and_right, exists_or]
  rfl

/-- A subtree in front of all paths counts for each of them. -/
theorem isGreatest_pathCounts_cons {p : Expr → Bool} {paths : List (List Expr)} {m : Nat}
    (h : IsGreatest (pathCounts p paths) m) (d : Expr) :
    IsGreatest (pathCounts p (paths.map (d :: ·))) (m + if p d then 1 else 0) := by
  constructor
  · obtain ⟨path, hpath, hm⟩ := h.1
    exact ⟨d :: path, List.mem_map_of_mem hpath, by rw [List.countP_cons, hm]⟩
  · rintro k ⟨_, hmem, rfl⟩
    obtain ⟨path, hpath, rfl⟩ := List.mem_map.mp hmem
    rw [List.countP_cons]
    exact Nat.add_le_add_right (h.2 ⟨path, hpath, rfl⟩) _

/-- The recursion finds the greatest number on a path. -/
theorem isGreatest_deepest (p : Expr → Bool) (e : Expr) :
    IsGreatest (pathCounts p e.paths) (e.deepest p) := by
  induction e with
  | constant v =>
    have hone : (Expr.constant v).paths = [[]].map (.constant v :: ·) := rfl
    have hnil : IsGreatest (pathCounts p [[]]) 0 := by simp [pathCounts, IsGreatest, upperBounds]
    have h := isGreatest_pathCounts_cons hnil (.constant v)
    rwa [Nat.zero_add] at h
  | negate e ih => exact isGreatest_pathCounts_cons ih _
  | exponent b n ih => exact isGreatest_pathCounts_cons ih _
  -- The greater of the two greatest numbers is the greatest of all.
  | addition l r ihl ihr =>
    apply isGreatest_pathCounts_cons
    rw [pathCounts_append]
    exact ihl.union ihr
  | multiplication l r ihl ihr =>
    apply isGreatest_pathCounts_cons
    rw [pathCounts_append]
    exact ihl.union ihr

end Expr
end Reckoner
