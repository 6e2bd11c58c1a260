import Mathlib.Algebra.BigOperators.Group.List.Basic
import Mathlib.Algebra.GroupWithZero.Nat
import Reckoner.Proofs.Expr.Paths
import Reckoner.Proofs.Rendering.Ink
import Reckoner.Proofs.Rendering.Stack
import Reckoner.Proofs.Text.Canonical
import Reckoner.Proofs.Text.Integer
import Reckoner.Proofs.Text.Nesting

/-!
# Balanced renderings

Every parenthesis and every sign of a rendering belongs to a node.  What a node writes around its
operands is its `Expr.frame`; the characters of a rendering are those of the frames of all subtrees,
each as often as it occurs there (`Expr.count_ink`).  How far the parentheses are nested is found
by recursion on the tree (`Expr.climbs_ink`): sums and products add one, and everything else that a
node writes is flat.

Both depend only on the characters that are not blank, so that they are true of the rendering
whether or not it is normalised (`Expr.Accounted.of_filter`).
-/

namespace Reckoner
namespace Expr

/-! ## Counting nodes -/

/-- The number of subtrees with a property. -/
def number (e : Expr) (p : Expr → Bool) : Nat := e.postorder.countP p

theorem number_eq_sum (e : Expr) (p : Expr → Bool) :
    e.number p = (e.postorder.map fun d => if p d then 1 else 0).sum := by
  rw [number]
  induction e.postorder with
  | nil => rfl
  | cons d ds ih => rw [List.countP_cons, List.map_cons, List.sum_cons, ih, Nat.add_comm]

/-- If every subtree is counted once for each property that it has, then every property is counted
once for each subtree that has it. -/
theorem sum_countP_eq_sum_number (e : Expr) (ps : List (Expr → Bool)) :
    (e.postorder.map fun d => ps.countP (· d)).sum = (ps.map e.number).sum := by
  induction ps with
  | nil => simp
  | cons p ps ih =>
    simp only [List.countP_cons, List.sum_map_add, ih, ← number_eq_sum, List.map_cons,
      List.sum_cons]
    exact Nat.add_comm _ _

def hasKind (k : Kind) (e : Expr) : Bool := e.kind = k

/-- Whether a tree is a sum or a product. -/
def isBinary (e : Expr) : Bool := e.hasKind .addition || e.hasKind .multiplication

def isNegativeConstant : Expr → Bool
  | .constant v => v < 0
  | _ => false

/-- Whether a tree is a power with a negative exponent. -/
def hasNegativePower : Expr → Bool
  | .exponent _ n => n < 0
  | _ => false

/-! ## Frames -/

/-- The characters that the root of a tree writes around its operands. -/
def frame : Expr → List Char
  | .constant v => ' ' :: ((decimal32 v).toList ++ [' '])
  | .negate _ => [' ', '-', ' ']
  | .exponent _ n => ' ' :: ' ' :: '^' :: ' ' :: (decimal32 n).toList
  | .addition _ _ => binaryInk '+' [] []
  | .multiplication _ _ => binaryInk '*' [] []

theorem count_binaryInk (operator : Char) (left right : List Char) (c : Char) :
    (binaryInk operator left right).count c =
      left.count c + right.count c + (binaryInk operator [] []).count c := by
  simp only [binaryInk, List.count_cons, List.count_append, List.count_nil, List.cons_append,
    List.nil_append]
  omega

/-- A character occurs in a rendering as often as in the frames of all subtrees. -/
theorem count_ink (e : Expr) (c : Char) :
    e.ink.count c = (e.postorder.map fun d => d.frame.count c).sum := by
  induction e with
  | constant v => simp [ink, postorder, frame]
  | negate e ih =>
    -- The operand stands inside the frame.
    have hroot : (negate e).ink.count c = e.ink.count c + (negate e).frame.count c := by
      simp only [ink, frame, List.count_cons, List.count_append, List.count_nil]
      omega
    rw [hroot, ih]
    simp [postorder]
  | exponent b n ih =>
    have hroot : (exponent b n).ink.count c = b.ink.count c + (exponent b n).frame.count c := by
      simp only [ink, frame, List.count_cons, List.count_append]
      omega
    rw [hroot, ih]
    simp [postorder]
  | addition l r ihl ihr =>
    rw [ink, count_binaryInk, ihl, ihr]
    simp [postorder, frame, Nat.add_assoc]
  | multiplication l r ihl ihr =>
    rw [ink, count_binaryInk, ihl, ihr]
    simp [postorder, frame, Nat.add_assoc]

/-- Which nodes write a character that is no digit and no blank. -/
def writers : Char → List (Expr → Bool)
  | '(' | ')' => [hasKind .addition, hasKind .multiplication]
  | '+' => [hasKind .addition]
  | '*' => [hasKind .multiplication]
  | '^' => [hasKind .exponent]
  | '-' => [hasKind .negate, isNegativeConstant, hasNegativePower]
  | _ => []

theorem count_frame {c : Char} (hdigit : isDigit c = false) (hblank : isBlank c = false)
    (d : Expr) : d.frame.count c = (writers c).countP (· d) := by
  have hdecimal (v : Int32) := count_decimal32 v hdigit
  unfold writers
  split
  case h_7 hopening hclosing hplus htimes hcaret hminus =>
    -- No node writes a character that is not listed.
    have hspace : c ≠ ' ' := by
      rintro rfl
      cases hblank
    have hdigits (v : Int32) : c ∉ (decimal32 v).toList := by
      rw [← List.count_eq_zero, hdecimal v, if_neg fun h => hminus h.1]
    rw [List.countP_nil, List.count_eq_zero]
    cases d <;> simp_all [frame, binaryInk]
  -- All others are written by the nodes that are listed, once each.
  all_goals
    cases d <;> simp [frame, binaryInk, hasKind, isNegativeConstant, hasNegativePower, kind, root,
      Node.kind, List.countP_cons, hdecimal]

/-- Every character but digits and blanks is accounted for by the nodes that write it. -/
theorem count_ink_eq_sum {c : Char} (hdigit : isDigit c = false) (hblank : isBlank c = false)
    (e : Expr) : e.ink.count c = ((writers c).map e.number).sum := by
  simp only [count_ink, count_frame hdigit hblank, sum_countP_eq_sum_number]

/-! ## Nesting -/

theorem flat_decimal32 (v : Int32) : Flat (decimal32 v).toList := by
  constructor
  · rw [← List.count_eq_zero, count_decimal32 v rfl]
    rfl
  · rw [← List.count_eq_zero, count_decimal32 v rfl]
    rfl

theorem climbs_binaryInk {operator : Char} (hoperator : Flat [' ', operator, ' '])
    {left right : List Char} {m n : Nat} (hleft : Climbs left m) (hright : Climbs right n) :
    Climbs (binaryInk operator left right) (max m n + 1) := by
  -- The operator keeps the operands apart, and the parentheses are around all of it.
  have hinside := (hleft.append (.of_flat hoperator)).append hright
  have hspace : Flat [' '] := by simp [Flat]
  have h := Climbs.surrounded hspace hinside.parenthesised hspace
  rw [Nat.max_zero] at h
  simpa [binaryInk] using h

/-- The nesting of a rendering is as deep as sums and products lie inside each other. -/
theorem climbs_ink (e : Expr) : Climbs e.ink (e.deepest isBinary) := by
  induction e with
  | constant v =>
    have hflat : Flat (constant v).ink := by
      have hdecimal := flat_decimal32 v
      simpa [Flat, ink] using hdecimal
    exact .of_flat hflat
  | negate e ih =>
    have hbefore : Flat [' ', '-'] := by simp [Flat]
    have hafter : Flat [' '] := by simp [Flat]
    exact .surrounded hbefore ih hafter
  | exponent b n ih =>
    have hbefore : Flat [' '] := by simp [Flat]
    have hafter : Flat (' ' :: '^' :: ' ' :: (decimal32 n).toList) := by
      have hdecimal := flat_decimal32 n
      simpa [Flat] using hdecimal
    exact .surrounded hbefore ih hafter
  | addition l r ihl ihr => exact climbs_binaryInk (by simp [Flat]) ihl ihr
  | multiplication l r ihl ihr => exact climbs_binaryInk (by simp [Flat]) ihl ihr

/-! ## Accounting -/

/-- Whether a text is balanced and all its parentheses and signs are accounted for by the nodes of a
tree: their numbers, and how deep the parentheses are nested. -/
structure Accounted (e : Expr) (cs : List Char) : Prop where
  /-- No parenthesis is closed before it has been opened. -/
  balanced : ∀ p, p <+: cs → p.count ')' ≤ p.count '('
  opening : cs.count '(' = e.number (hasKind .addition) + e.number (hasKind .multiplication)
  closing : cs.count ')' = e.number (hasKind .addition) + e.number (hasKind .multiplication)
  plus : cs.count '+' = e.number (hasKind .addition)
  times : cs.count '*' = e.number (hasKind .multiplication)
  caret : cs.count '^' = e.number (hasKind .exponent)
  /-- Minus signs stand in front of negated operands and of negative integers. -/
  minus : cs.count '-' =
    e.number (hasKind .negate) + e.number isNegativeConstant + e.number hasNegativePower
  /-- The parentheses are nested as deep as sums and products lie on one path. -/
  deepest : ∃ n : Nat, IsGreatest (pathCounts isBinary e.paths) n ∧ IsGreatest (heights cs) n

/-- Blanks do not matter: a text is accounted for as soon as it has the other characters of the
rendering. -/
theorem Accounted.of_filter {e : Expr} {cs : List Char}
    (h : cs.filter (! isBlank ·) = e.ink.filter (! isBlank ·)) : e.Accounted cs := by
  have hcount (c : Char) (hdigit : isDigit c = false) (hblank : isBlank c = false) :
      cs.count c = ((writers c).map e.number).sum := by
    have hfilter (ds : List Char) : (ds.filter (! isBlank ·)).count c = ds.count c :=
      List.count_filter (by simp [hblank])
    rw [← hfilter cs, h, hfilter, count_ink_eq_sum hdigit hblank]
  have hclimbs : Climbs cs (e.deepest isBinary) := by
    have hkept : Climbs (e.ink.filter (! isBlank ·)) (e.deepest isBinary) :=
      (climbs_filter_iff rfl rfl).mpr e.climbs_ink
    rw [← h] at hkept
    exact (climbs_filter_iff rfl rfl).mp hkept
  refine ⟨?balanced, hcount '(' rfl rfl, hcount ')' rfl rfl, hcount '+' rfl rfl, hcount '*' rfl rfl,
    hcount '^' rfl rfl, ?minus, ?deepest⟩
  case balanced =>
    intro p hp
    have hnonneg : 0 ≤ excess p := hclimbs.nonneg _ ⟨p, hp, rfl⟩
    rw [excess] at hnonneg
    omega
  case minus =>
    rw [hcount '-' rfl rfl]
    simp [writers, Nat.add_assoc]
  case deepest => exact ⟨e.deepest isBinary, e.isGreatest_deepest isBinary, hclimbs.isGreatest⟩

/-- **Renderings are balanced and account for every node**, whether a tree is rendered by recursion
or from a stack, and also when the rendering has been normalised.  Parentheses are closed only
after they have been opened; there are as many of each sort as there are sums and products, and as
many signs as there are nodes that write them; and the nesting of the parentheses is the greatest
number of sums and products on a path through the tree. -/
theorem render_accounted (e : Expr) :
    e.Accounted e.render.toList ∧ e.Accounted e.renderStack.toList ∧
      e.Accounted (normalize e.render).toList := by
  have hrender : e.Accounted e.render.toList := by
    apply Accounted.of_filter
    rw [toList_render]
  refine ⟨hrender, ?_, ?_⟩
  · rw [renderStack_eq]
    exact hrender
  · apply Accounted.of_filter
    rw [filter_normalize, toList_render]

end Expr
end Reckoner
