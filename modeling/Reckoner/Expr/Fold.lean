import Reckoner.Expr

/-!
# Folding a tree

A `Folder` answers one node at a time: it is given the node with the answers for its operands
and its own state, and it either answers or fails.  `Expr.fold` asks it about every node of a
tree, operands before their node and left before right, and stops at the first failure; the
state is kept in either case.  An `Algebra` is a folder that has no state and cannot fail.
-/

namespace Reckoner

/-- Answers a node whose operands have been answered; may change its state and may fail. -/
abbrev Folder (σ ε α : Type) := Node α → σ → Except ε α × σ

/-- Answers a node whose operands have been answered. -/
abbrev Algebra (α : Type) := Node α → α

/-- Goes on with the answer of an attempt, or passes its failure on. -/
@[inline] def andThen {σ ε α β : Type} (attempt : Except ε α × σ)
    (next : α → σ → Except ε β × σ) : Except ε β × σ :=
  match attempt with
  | (.ok a, s) => next a s
  | (.error x, s) => (.error x, s)

/-- The answer of an attempt that cannot fail. -/
@[inline] def certain {α : Type} : Except Empty α → α
  | .ok a => a

def Algebra.folder {α : Type} (a : Algebra α) : Folder Unit Empty α :=
  fun node s => (.ok (a node), s)

namespace Expr

/-- Asks a folder about every node, operands first and left before right. -/
def fold {σ ε α : Type} (f : Folder σ ε α) : Expr → σ → Except ε α × σ
  | .constant v, s => f (.constant v) s
  | .negate e, s => andThen (fold f e s) fun a s => f (.negate a) s
  | .exponent b n, s => andThen (fold f b s) fun a s => f (.exponent a n) s
  | .addition l r, s =>
    andThen (fold f l s) fun a s => andThen (fold f r s) fun b s => f (.addition a b) s
  | .multiplication l r, s =>
    andThen (fold f l s) fun a s => andThen (fold f r s) fun b s => f (.multiplication a b) s

/-- The value of an algebra on a tree. -/
def value {α : Type} (a : Algebra α) (e : Expr) : α :=
  certain (e.fold a.folder ()).1

end Expr

end Reckoner
