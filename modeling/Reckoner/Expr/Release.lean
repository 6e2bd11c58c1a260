import Reckoner.Expr.Machine

/-!
# Taking a tree apart

A tree is released without recursion: the subtrees of a node that are not constants are moved
onto a stack and a constant is left in their place, so that what remains of the node is at most
one level deep and can be let go.  `Expr.husks` lists what is let go, in order, the root last.
-/

namespace Reckoner
namespace Expr

/-- A subtree to be moved out, with what is left in its place: constants stay where they are. -/
def detach : Expr → Expr × List Expr
  | .constant v => (.constant v, [])
  | e => (.constant 0, [e])

/-- What is left of a node once its subtrees are moved out, and the subtrees with the one to be
taken next in front. -/
def detachOperands : Expr → Expr × List Expr
  | .constant v => (.constant v, [])
  | .negate e => (.negate e.detach.1, e.detach.2)
  | .exponent b n => (.exponent b.detach.1 n, b.detach.2)
  -- The right operand is taken apart before the left one.
  | .addition l r => (.addition l.detach.1 r.detach.1, r.detach.2 ++ l.detach.2)
  | .multiplication l r => (.multiplication l.detach.1 r.detach.1, r.detach.2 ++ l.detach.2)

def stackLoad : List Expr → Nat
  | [] => 0
  | e :: stack => e.workload + stackLoad stack

theorem stackLoad_append (xs ys : List Expr) :
    stackLoad (xs ++ ys) = stackLoad xs + stackLoad ys := by
  induction xs with
  | nil => simp [stackLoad]
  | cons x xs ih => simp [stackLoad, ih, Nat.add_assoc]

theorem stackLoad_detach (e : Expr) : stackLoad e.detach.2 ≤ e.workload := by
  cases e <;> simp [detach, stackLoad]

/-- Moving the subtrees out leaves less work than the tree was. -/
theorem stackLoad_detachOperands (e : Expr) : stackLoad e.detachOperands.2 < e.workload := by
  cases e with
  | constant v => simp [detachOperands, stackLoad, workload]
  | negate e => have := stackLoad_detach e; simp only [detachOperands, workload]; omega
  | exponent b n => have := stackLoad_detach b; simp only [detachOperands, workload]; omega
  | addition l r =>
    have := stackLoad_detach l
    have := stackLoad_detach r
    simp only [detachOperands, workload, stackLoad_append]; omega
  | multiplication l r =>
    have := stackLoad_detach l
    have := stackLoad_detach r
    simp only [detachOperands, workload, stackLoad_append]; omega

/-- Takes the trees of a stack apart, the first one first, and lists what is let go. -/
def releaseStack (stack : List Expr) : List Expr :=
  match stack with
  | [] => []
  | e :: stack => e.detachOperands.1 :: releaseStack (e.detachOperands.2 ++ stack)
termination_by stackLoad stack
decreasing_by
  have := stackLoad_detachOperands e
  simp only [stackLoad_append, stackLoad]
  omega

/-- What is let go when a tree is released: every node that is moved out, then the root. -/
def husks (e : Expr) : List Expr :=
  releaseStack e.detachOperands.2 ++ [e.detachOperands.1]

end Expr
end Reckoner
