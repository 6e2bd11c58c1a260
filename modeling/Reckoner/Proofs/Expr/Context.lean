import Reckoner.Proofs.Expr.Subtrees
import Reckoner.Proofs.Fold.Success

/-!
# Trees with one open place

A `Context` is a tree in which one subtree has been taken out; `Context.fill` puts a tree there.
The subtrees of a tree are exactly what its contexts are filled with (`Context.exists_fill_iff`).

What a fold does on a filled context depends on the tree in it only through what the fold does on
that tree.  `Context.foldWith` folds a context that is given an arbitrary attempt for its open
place, and `Context.fold_fill` says that the attempt of a tree is all that counts.  The attempt is
made in the middle of the context: what stands before the open place is folded first and may fail
before it, and what stands behind it is folded only if the attempt succeeds.
-/

namespace Reckoner

/-- A tree with one place left open. -/
inductive Context where
  | hole
  | negate (inner : Context)
  | exponent (inner : Context) (power : Int32)
  -- The place is in the left operand or in the right one.
  | additionLeft (inner : Context) (right : Expr)
  | additionRight (left : Expr) (inner : Context)
  | multiplicationLeft (inner : Context) (right : Expr)
  | multiplicationRight (left : Expr) (inner : Context)

namespace Context

/-- The tree with another one in the open place. -/
def fill : Context → Expr → Expr
  | .hole, e => e
  | .negate c, e => .negate (c.fill e)
  | .exponent c n, e => .exponent (c.fill e) n
  | .additionLeft c r, e => .addition (c.fill e) r
  | .additionRight l c, e => .addition l (c.fill e)
  | .multiplicationLeft c r, e => .multiplication (c.fill e) r
  | .multiplicationRight l c, e => .multiplication l (c.fill e)

/-! ## Open places are subtrees -/

theorem mem_postorder_fill (c : Context) (e : Expr) : e ∈ (c.fill e).postorder := by
  induction c with
  | hole => exact e.mem_postorder_self
  | negate c ih => simp [fill, Expr.postorder, ih]
  | exponent c n ih => simp [fill, Expr.postorder, ih]
  | additionLeft c r ih => simp [fill, Expr.postorder, ih]
  | additionRight l c ih => simp [fill, Expr.postorder, ih]
  | multiplicationLeft c r ih => simp [fill, Expr.postorder, ih]
  | multiplicationRight l c ih => simp [fill, Expr.postorder, ih]

/-- A context in an operand is one in the tree. -/
theorem exists_fill_of_operand {e o d : Expr} (ho : o ∈ e.operands)
    (h : ∃ c : Context, c.fill d = o) : ∃ c : Context, c.fill d = e := by
  obtain ⟨c, rfl⟩ := h
  -- The context goes where the operand stands.
  cases e with
  | constant v => cases ho
  | negate e =>
    obtain rfl := List.mem_singleton.mp ho
    exact ⟨.negate c, rfl⟩
  | exponent b n =>
    obtain rfl := List.mem_singleton.mp ho
    exact ⟨.exponent c n, rfl⟩
  | addition l r =>
    simp only [Expr.operands, List.mem_cons, List.not_mem_nil, or_false] at ho
    rcases ho with rfl | rfl
    · exact ⟨.additionLeft c r, rfl⟩
    · exact ⟨.additionRight l c, rfl⟩
  | multiplication l r =>
    simp only [Expr.operands, List.mem_cons, List.not_mem_nil, or_false] at ho
    rcases ho with rfl | rfl
    · exact ⟨.multiplicationLeft c r, rfl⟩
    · exact ⟨.multiplicationRight l c, rfl⟩

/-- Every subtree can be taken out, and what is left is a context. -/
theorem exists_fill_of_mem {e d : Expr} (h : d ∈ e.postorder) : ∃ c : Context, c.fill d = e := by
  induction e using Expr.induction_operands with
  | step e ih =>
    rcases Expr.mem_postorder_iff.mp h with ⟨o, ho, hd⟩ | rfl
    · exact exists_fill_of_operand ho (ih o ho hd)
    · exact ⟨.hole, rfl⟩

theorem exists_fill_iff {e d : Expr} : (∃ c : Context, c.fill d = e) ↔ d ∈ e.postorder := by
  constructor
  · rintro ⟨c, rfl⟩
    exact c.mem_postorder_fill d
  · exact exists_fill_of_mem

/-- Below its root a context fixes the kind of the tree, whatever it is filled with. -/
theorem kind_fill {c : Context} (hc : c ≠ .hole) (e e' : Expr) :
    (c.fill e).kind = (c.fill e').kind := by
  cases c with
  | hole => exact absurd rfl hc
  | negate _ | exponent _ _ | additionLeft _ _ | additionRight _ _ | multiplicationLeft _ _
  | multiplicationRight _ _ => rfl

/-! ## Folding a context -/

variable {σ ε α : Type}

/-- Folds a context, with a given attempt in the open place. -/
def foldWith (f : Folder σ ε α) (attempt : σ → Except ε α × σ) : Context → σ → Except ε α × σ
  | .hole, s => attempt s
  | .negate c, s => andThen (foldWith f attempt c s) fun a s => f (.negate a) s
  | .exponent c n, s => andThen (foldWith f attempt c s) fun a s => f (.exponent a n) s
  | .additionLeft c r, s =>
    andThen (foldWith f attempt c s) fun a s => andThen (r.fold f s) fun b s => f (.addition a b) s
  | .additionRight l c, s =>
    andThen (l.fold f s) fun a s => andThen (foldWith f attempt c s) fun b s => f (.addition a b) s
  | .multiplicationLeft c r, s =>
    andThen (foldWith f attempt c s) fun a s =>
      andThen (r.fold f s) fun b s => f (.multiplication a b) s
  | .multiplicationRight l c, s =>
    andThen (l.fold f s) fun a s =>
      andThen (foldWith f attempt c s) fun b s => f (.multiplication a b) s

/-- A filled context is folded as the context is, with the fold of the tree in the open place. -/
theorem fold_fill (f : Folder σ ε α) (c : Context) (e : Expr) :
    (c.fill e).fold f = c.foldWith f (e.fold f) := by
  funext s
  -- The operand that holds the open place is reached in a state of its own.
  induction c generalizing s with
  | hole => rfl
  | negate c ih => simp only [fill, Expr.fold, foldWith, ih]
  | exponent c n ih => simp only [fill, Expr.fold, foldWith, ih]
  | additionLeft c r ih => simp only [fill, Expr.fold, foldWith, ih]
  | additionRight l c ih => simp only [fill, Expr.fold, foldWith, ih]
  | multiplicationLeft c r ih => simp only [fill, Expr.fold, foldWith, ih]
  | multiplicationRight l c ih => simp only [fill, Expr.fold, foldWith, ih]

/-- Trees on which a folder does the same are exchanged without notice, from every state. -/
theorem fold_fill_congr {f : Folder σ ε α} {e e' : Expr} (h : e.fold f = e'.fold f)
    (c : Context) : (c.fill e).fold f = (c.fill e').fold f := by
  rw [fold_fill, fold_fill, h]

/-- Trees with one value are exchanged without a change of the value. -/
theorem value_fill_congr {a : Algebra α} {e e' : Expr} (h : e.value a = e'.value a)
    (c : Context) : (c.fill e).value a = (c.fill e').value a := by
  have hfold : e.fold a.folder = e'.fold a.folder := by
    funext s
    rw [Expr.fold_folder, Expr.fold_folder, h]
  unfold Expr.value
  rw [fold_fill_congr hfold]

end Context
end Reckoner
