import Mathlib.Algebra.GroupWithZero.Nat
import Reckoner.Proofs.Expr.Measure
import Reckoner.Proofs.Expr.Paths

/-!
# Size against depth

The size of a tree is the number of its nodes, and its depth the length of a longest path to a
constant (`Expr.isGreatest_depth`).  A path has no more nodes than the tree, and a tree of a given
depth has fewer nodes than there are binary words of this length (`Expr.size_lt_two_pow_depth`).

Which trees reach these bounds is decided at the root and then at its operands: a tree is as deep as
it has nodes if no node has two operands (`Expr.depth_eq_size_iff`), and it has as many nodes as its
depth allows if every node above the constants has two operands of the same depth
(`Expr.size_eq_iff_perfect`, `Expr.perfect_iff`).
-/

namespace Reckoner

/-! ## Room at a depth -/

/-- The deeper of two has room for what either has room for. -/
private theorem two_pow_le_max (a b : Nat) : 2 ^ a ≤ 2 ^ max a b ∧ 2 ^ b ≤ 2 ^ max a b :=
  ⟨Nat.pow_le_pow_right Nat.two_pos (Nat.le_max_left a b),
    Nat.pow_le_pow_right Nat.two_pos (Nat.le_max_right a b)⟩

/-- One level more has room for two operands and the node above them. -/
theorem add_lt_two_pow_max {s t a b : Nat} (hs : s < 2 ^ a) (ht : t < 2 ^ b) :
    s + t + 1 < 2 ^ (max a b + 1) := by
  obtain ⟨ha, hb⟩ := two_pow_le_max a b
  rw [Nat.pow_succ]
  omega

/-- Two operands take all the room below a node if each of them takes its own and neither is
deeper. -/
theorem add_eq_two_pow_max_iff {s t a b : Nat} (hs : s < 2 ^ a) (ht : t < 2 ^ b) :
    s + t + 1 = 2 ^ (max a b + 1) - 1 ↔
      (s = 2 ^ a - 1 ∧ a + 1 = max a b + 1) ∧ (t = 2 ^ b - 1 ∧ b + 1 = max a b + 1) := by
  obtain ⟨ha, hb⟩ := two_pow_le_max a b
  rw [Nat.pow_succ]
  constructor
  · intro h
    -- Nothing is left, so that both have the room of the deeper one.
    have hpowa : 2 ^ a = 2 ^ max a b := by omega
    have hpowb : 2 ^ b = 2 ^ max a b := by omega
    have hmaxa : a = max a b := Nat.pow_right_injective Nat.le.refl hpowa
    have hmaxb : b = max a b := Nat.pow_right_injective Nat.le.refl hpowb
    omega
  · rintro ⟨⟨rfl, hmaxa⟩, rfl, hmaxb⟩
    rw [← Nat.succ.inj hmaxa, ← Nat.succ.inj (hmaxa.trans hmaxb.symm)]
    omega

/-- A single operand leaves half of the room below a node, and that is more than a node takes. -/
theorem succ_ne_two_pow {s d : Nat} (hs : s < 2 ^ d) (hd : 0 < d) : s + 1 ≠ 2 ^ (d + 1) - 1 := by
  have htwo : 2 ^ 1 ≤ 2 ^ d := Nat.pow_le_pow_right Nat.two_pos hd
  rw [Nat.pow_succ]
  omega

namespace Expr

/-! ## The longest path -/

/-- With all nodes counted, the deepest path has as many as the tree is deep. -/
theorem deepest_eq_depth (e : Expr) : e.deepest (fun _ => true) = e.depth := by
  induction e with
  | constant v => simp [deepest]
  | negate e ih => simp [deepest, ih]
  | exponent b n ih => simp [deepest, ih]
  | addition l r ihl ihr => simp [deepest, ihl, ihr]
  | multiplication l r ihl ihr => simp [deepest, ihl, ihr]

/-- The depth is the length of a longest path from the root to a constant. -/
theorem isGreatest_depth (e : Expr) :
    IsGreatest {n | ∃ path ∈ e.paths, path.length = n} e.depth := by
  have h := e.isGreatest_deepest fun _ => true
  simpa only [pathCounts, List.countP_true, deepest_eq_depth] using h

/-- All paths are equally long if none is shorter than the longest. -/
theorem level_iff (e : Expr) : (∀ path ∈ e.paths, ∀ path' ∈ e.paths, path.length = path'.length) ↔
    ∀ path ∈ e.paths, path.length = e.depth := by
  -- There is a path of greatest length to compare with.
  obtain ⟨longest, hmem, hlongest⟩ := e.isGreatest_depth.1
  constructor
  · intro h path hpath
    rw [h path hpath longest hmem, hlongest]
  · intro h path hpath path' hpath'
    rw [h path hpath, h path' hpath']

/-! ## Bounds -/

/-- A longest path has no more nodes than the tree. -/
theorem depth_le_size (e : Expr) : e.depth ≤ e.size := by
  induction e with
  | constant v => simp
  | negate e ih => simpa using ih
  | exponent b n ih => simpa using ih
  -- The path goes through one of the operands only.
  | addition l r ihl ihr =>
    rw [depth_addition, size_addition]
    omega
  | multiplication l r ihl ihr =>
    rw [depth_multiplication, size_multiplication]
    omega

/-- A path through one of two operands leaves out the other one. -/
theorem max_depth_lt_add_size (l r : Expr) : max l.depth r.depth < l.size + r.size := by
  have hl := l.depth_le_size
  have hr := r.depth_le_size
  have hlpos := l.depth_pos
  have hrpos := r.depth_pos
  omega

/-- Every level can double the number of nodes. -/
theorem size_lt_two_pow_depth (e : Expr) : e.size < 2 ^ e.depth := by
  induction e with
  | constant v => simp
  -- A single operand leaves room unused.
  | negate e ih =>
    rw [size_negate, depth_negate, Nat.pow_succ]
    omega
  | exponent b n ih =>
    rw [size_exponent, depth_exponent, Nat.pow_succ]
    omega
  | addition l r ihl ihr =>
    rw [size_addition, depth_addition]
    exact add_lt_two_pow_max ihl ihr
  | multiplication l r ihl ihr =>
    rw [size_multiplication, depth_multiplication]
    exact add_lt_two_pow_max ihl ihr

/-! ## Trees that are as deep as they have nodes -/

/-- Whether no node has two operands. -/
def Unbranched (e : Expr) : Prop :=
  ∀ d ∈ e.postorder, d.kind ≠ .addition ∧ d.kind ≠ .multiplication

/-- A tree is unbranched if its root is, and its operands are. -/
theorem unbranched_iff (e : Expr) : e.Unbranched ↔
    (e.kind ≠ .addition ∧ e.kind ≠ .multiplication) ∧ ∀ o ∈ e.operands, o.Unbranched :=
  forall_mem_postorder_iff

/-- A tree is as deep as it has nodes just if no node has two operands. -/
theorem depth_eq_size_iff (e : Expr) : e.depth = e.size ↔ e.Unbranched := by
  induction e with
  | constant v => simp [unbranched_iff (constant v), kind, root, Node.kind, operands]
  | negate e ih => simp [unbranched_iff (negate e), kind, root, Node.kind, operands, ih]
  | exponent b n ih => simp [unbranched_iff (exponent b n), kind, root, Node.kind, operands, ih]
  -- A path leaves out one of two operands, so that neither side holds.
  | addition l r ihl ihr =>
    rw [unbranched_iff, depth_addition, size_addition]
    refine iff_of_false (Nat.ne_of_lt (Nat.succ_lt_succ (max_depth_lt_add_size l r))) ?_
    rintro ⟨⟨h, -⟩, -⟩
    exact h rfl
  | multiplication l r ihl ihr =>
    rw [unbranched_iff, depth_multiplication, size_multiplication]
    refine iff_of_false (Nat.ne_of_lt (Nat.succ_lt_succ (max_depth_lt_add_size l r))) ?_
    rintro ⟨⟨-, h⟩, -⟩
    exact h rfl

/-! ## Trees with as many nodes as their depth allows -/

/-- Whether a tree is a perfect binary tree. -/
structure Perfect (e : Expr) : Prop where
  /-- No node has a single operand. -/
  binary : ∀ d ∈ e.postorder, d.kind ≠ .negate ∧ d.kind ≠ .exponent
  /-- All constants are at the same depth. -/
  level : ∀ path ∈ e.paths, ∀ path' ∈ e.paths, path.length = path'.length

/-- Every path goes through the root and then through an operand. -/
theorem forall_length_paths_iff (e : Expr) : (∀ path ∈ e.paths, path.length = e.depth) ↔
    ∀ o ∈ e.operands, ∀ path ∈ o.paths, path.length + 1 = e.depth := by
  cases e with
  | constant v => simp [paths, operands]
  | negate e => simp [paths, operands]
  | exponent b n => simp [paths, operands]
  | addition l r => simp [paths, operands, or_imp, forall_and]
  | multiplication l r => simp [paths, operands, or_imp, forall_and]

/-- Perfect trees are built from perfect trees of the same depth. -/
theorem perfect_iff (e : Expr) : e.Perfect ↔
    (e.kind ≠ .negate ∧ e.kind ≠ .exponent) ∧
      ∀ o ∈ e.operands, o.Perfect ∧ o.depth + 1 = e.depth := by
  constructor
  · rintro ⟨hbinary, hlevel⟩
    obtain ⟨hroot, hbelow⟩ := forall_mem_postorder_iff.mp hbinary
    have hlength := e.forall_length_paths_iff.mp (e.level_iff.mp hlevel)
    refine ⟨hroot, fun o ho => ?_⟩
    -- The longest path below the operand is one of those that are all equally long.
    obtain ⟨longest, hmem, hlongest⟩ := o.isGreatest_depth.1
    have hdepth : o.depth + 1 = e.depth := hlongest ▸ hlength o ho longest hmem
    refine ⟨⟨hbelow o ho, o.level_iff.mpr fun path hpath => ?_⟩, hdepth⟩
    exact Nat.succ.inj ((hlength o ho path hpath).trans hdepth.symm)
  · -- Conversely all paths below the operands are as long as the root asks.
    rintro ⟨hroot, hbelow⟩
    refine ⟨forall_mem_postorder_iff.mpr ⟨hroot, fun o ho => (hbelow o ho).1.binary⟩, ?_⟩
    refine e.level_iff.mpr (e.forall_length_paths_iff.mpr fun o ho path hpath => ?_)
    obtain ⟨hperfect, hdepth⟩ := hbelow o ho
    rw [o.level_iff.mp hperfect.level path hpath, hdepth]

/-- A tree has as many nodes as its depth allows just if it is perfect. -/
theorem size_eq_iff_perfect (e : Expr) : e.size = 2 ^ e.depth - 1 ↔ e.Perfect := by
  induction e with
  | constant v => simp [perfect_iff (constant v), kind, root, Node.kind, operands]
  -- Below a single operand half of the room is left, so that neither side holds.
  | negate e ih =>
    rw [perfect_iff, size_negate, depth_negate]
    refine iff_of_false (succ_ne_two_pow e.size_lt_two_pow_depth e.depth_pos) ?_
    rintro ⟨⟨h, -⟩, -⟩
    exact h rfl
  | exponent b n ih =>
    rw [perfect_iff, size_exponent, depth_exponent]
    refine iff_of_false (succ_ne_two_pow b.size_lt_two_pow_depth b.depth_pos) ?_
    rintro ⟨⟨-, h⟩, -⟩
    exact h rfl
  -- Nothing is left below two operands just if nothing is left in either of them.
  | addition l r ihl ihr =>
    rw [perfect_iff, size_addition, depth_addition,
      add_eq_two_pow_max_iff l.size_lt_two_pow_depth r.size_lt_two_pow_depth, ihl, ihr]
    simp [kind, root, Node.kind, operands]
  | multiplication l r ihl ihr =>
    rw [perfect_iff, size_multiplication, depth_multiplication,
      add_eq_two_pow_max_iff l.size_lt_two_pow_depth r.size_lt_two_pow_depth, ihl, ihr]
    simp [kind, root, Node.kind, operands]

/-- **Size and depth bound each other.**  Computed on the explicit stack, they are the number of
nodes and the length of a longest path.  The depth is between one and the size, and the size is less
than a power of two with the depth as exponent; the first bound is reached by the trees without a
sum or a product, and the second by the perfect ones. -/
theorem size_depth_bounded (e : Expr) :
    e.size = e.postorder.length ∧
    IsGreatest {n | ∃ path ∈ e.paths, path.length = n} e.depth ∧
    1 ≤ e.depth ∧ e.depth ≤ e.size ∧ e.size ≤ 2 ^ e.depth - 1 ∧
    (e.depth = e.size ↔ e.Unbranched) ∧
    (e.size = 2 ^ e.depth - 1 ↔ e.Perfect) :=
  ⟨e.size_eq_length_postorder, e.isGreatest_depth, e.depth_pos, e.depth_le_size,
    Nat.le_sub_one_of_lt e.size_lt_two_pow_depth, e.depth_eq_size_iff, e.size_eq_iff_perfect⟩

end Expr
end Reckoner
