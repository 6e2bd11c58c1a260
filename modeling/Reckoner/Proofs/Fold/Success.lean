import Reckoner.Proofs.Expr.Subtrees
import Reckoner.Proofs.Fold.Simulation

/-!
# Folds that succeed

A fold that returns an answer has been answered at every subtree (`Expr.fold_ok_of_mem`).  An
algebra answers every node, so that a fold with it always returns; its value is the algebra's
answer for the root over the values of the operands, whichever way the tree is walked.  Where the
answers of a folder are those of an algebra, the answer of its fold is the algebra's value
(`Expr.value_of_fold_eq_ok`).
-/

namespace Reckoner

variable {σ ε α β : Type}

/-- A sequence of two attempts succeeds if both do. -/
theorem andThen_eq_ok_iff {attempt : Except ε α × σ} {next : α → σ → Except ε β × σ} {b : β}
    {t : σ} :
    andThen attempt next = (.ok b, t) ↔ ∃ a s, attempt = (.ok a, s) ∧ next a s = (.ok b, t) := by
  obtain ⟨answer, s⟩ := attempt
  constructor
  · intro h
    cases answer with
    | error x => cases h
    | ok a => exact ⟨a, s, rfl, h⟩
  · rintro ⟨a, s', hattempt, hnext⟩
    cases hattempt
    exact hnext

namespace Expr

/-! ## Every subtree succeeds -/

/-- A fold that returns an answer has been answered at every operand, from some state. -/
theorem fold_ok_of_operand {f : Folder σ ε α} {e o : Expr} (ho : o ∈ e.operands) {s t : σ} {v : α}
    (h : e.fold f s = (.ok v, t)) : ∃ s' w t', o.fold f s' = (.ok w, t') := by
  -- Every step of the fold has succeeded, and the operand is folded in one of them.
  cases e with
  | constant u => cases ho
  | negate e =>
    obtain ⟨a, s₁, he, -⟩ := andThen_eq_ok_iff.mp h
    rw [List.mem_singleton.mp ho]
    exact ⟨s, a, s₁, he⟩
  | exponent b n =>
    obtain ⟨a, s₁, hb, -⟩ := andThen_eq_ok_iff.mp h
    rw [List.mem_singleton.mp ho]
    exact ⟨s, a, s₁, hb⟩
  | addition l r =>
    obtain ⟨a, s₁, hl, hright⟩ := andThen_eq_ok_iff.mp h
    obtain ⟨b, s₂, hr, -⟩ := andThen_eq_ok_iff.mp hright
    simp only [operands, List.mem_cons, List.not_mem_nil, or_false] at ho
    rcases ho with rfl | rfl
    · exact ⟨s, a, s₁, hl⟩
    · -- The right operand is folded from the state that the left one has left.
      exact ⟨s₁, b, s₂, hr⟩
  | multiplication l r =>
    obtain ⟨a, s₁, hl, hright⟩ := andThen_eq_ok_iff.mp h
    obtain ⟨b, s₂, hr, -⟩ := andThen_eq_ok_iff.mp hright
    simp only [operands, List.mem_cons, List.not_mem_nil, or_false] at ho
    rcases ho with rfl | rfl
    · exact ⟨s, a, s₁, hl⟩
    · exact ⟨s₁, b, s₂, hr⟩

/-- So it has been answered at every subtree. -/
theorem fold_ok_of_mem {f : Folder σ ε α} {e d : Expr} (hd : d ∈ e.postorder) {s t : σ} {v : α}
    (h : e.fold f s = (.ok v, t)) : ∃ s' w t', d.fold f s' = (.ok w, t') := by
  induction e using induction_operands generalizing s t v with
  | step e ih =>
    rcases mem_postorder_iff.mp hd with ⟨o, ho, hd⟩ | rfl
    · obtain ⟨s', w, t', hoperand⟩ := fold_ok_of_operand ho h
      exact ih o ho hd hoperand
    · exact ⟨s, v, t, h⟩

/-! ## The value of an algebra -/

/-- A fold with an algebra returns its value. -/
theorem fold_folder (a : Algebra α) (e : Expr) (s : Unit) :
    e.fold a.folder s = (.ok (e.value a), ()) := by
  unfold value
  generalize e.fold a.folder s = attempt
  obtain ⟨answer, t⟩ := attempt
  cases answer with
  -- An algebra has no errors.
  | error x => exact x.elim
  | ok v => rfl

theorem value_constant (a : Algebra α) (v : Int32) : (constant v).value a = a (.constant v) := rfl

theorem value_negate (a : Algebra α) (e : Expr) :
    (negate e).value a = a (.negate (e.value a)) := by
  rw [value, fold, fold_folder]
  rfl

theorem value_exponent (a : Algebra α) (b : Expr) (n : Int32) :
    (exponent b n).value a = a (.exponent (b.value a) n) := by
  rw [value, fold, fold_folder]
  rfl

theorem value_addition (a : Algebra α) (l r : Expr) :
    (addition l r).value a = a (.addition (l.value a) (r.value a)) := by
  rw [value, fold, fold_folder, andThen, fold_folder]
  rfl

theorem value_multiplication (a : Algebra α) (l r : Expr) :
    (multiplication l r).value a = a (.multiplication (l.value a) (r.value a)) := by
  rw [value, fold, fold_folder, andThen, fold_folder]
  rfl

/-- The stack machine computes the same value. -/
theorem valueStack_eq_value (a : Algebra α) (e : Expr) : e.valueStack a = e.value a := by
  unfold valueStack value
  rw [foldStack_eq_fold]

/-- Where every answer of a folder is that of an algebra, the answer of a fold is its value. -/
theorem value_of_fold_eq_ok {f : Folder σ ε α} {a : Algebra α}
    (ha : ∀ node s v t, f node s = (.ok v, t) → a node = v) {e : Expr} {s t : σ} {v : α}
    (h : e.fold f s = (.ok v, t)) : e.value a = v := by
  -- The operands are folded from states of their own, and the answers do not depend on these.
  induction e generalizing s t v with
  | constant u => exact ha _ _ _ _ h
  | negate e ih =>
    obtain ⟨w, s₁, he, h⟩ := andThen_eq_ok_iff.mp h
    rw [value_negate, ih he]
    exact ha _ _ _ _ h
  | exponent b n ih =>
    obtain ⟨w, s₁, hb, h⟩ := andThen_eq_ok_iff.mp h
    rw [value_exponent, ih hb]
    exact ha _ _ _ _ h
  | addition l r ihl ihr =>
    obtain ⟨w, s₁, hl, h⟩ := andThen_eq_ok_iff.mp h
    obtain ⟨u, s₂, hr, h⟩ := andThen_eq_ok_iff.mp h
    rw [value_addition, ihl hl, ihr hr]
    exact ha _ _ _ _ h
  | multiplication l r ihl ihr =>
    obtain ⟨w, s₁, hl, h⟩ := andThen_eq_ok_iff.mp h
    obtain ⟨u, s₂, hr, h⟩ := andThen_eq_ok_iff.mp h
    rw [value_multiplication, ihl hl, ihr hr]
    exact ha _ _ _ _ h

end Expr
end Reckoner
