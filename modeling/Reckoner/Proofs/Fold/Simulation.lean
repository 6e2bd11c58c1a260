import Reckoner.Expr.Journal
import Reckoner.Expr.Machine

/-!
# The stack machine simulates the recursive fold

`Expr.fold` recurses into a tree and `Machine.run` works through a list of tasks.  Here the
machine is shown to do what the recursion does, for every folder, whatever state the folder keeps
and wherever it fails.

The invariant is `Machine.run_visit`: a machine that is about to visit a tree goes on as if the
tree were one question with the answer of the recursive fold, whatever tasks are still pending
and whatever answers are already stacked.

What a folder is asked is observed through `journaled`.  Keeping a journal changes neither the
answers nor the states of the folder (`Expr.fold_journaled`), so that equal journals say that both
traversals ask the same questions in the same order.
-/

namespace Reckoner

/-! ## Where a move leads -/

namespace Machine

variable {σ ε α : Type}

/-- Runs on from what a step has led to. -/
def follow (f : Folder σ ε α) : Move σ ε α → Option (Except ε α × σ)
  | .next m => run f m
  | .halt outcome s => some (outcome, s)
  | .underflow => none

theorem run_eq_follow (f : Folder σ ε α) (m : Machine σ α) : run f m = follow f (m.step f) := by
  rw [run]
  cases m.step f <;> rfl

/-! ## Visiting a tree -/

/-- A failure halts the machine before any pending task, so that a sequence of two attempts is
followed as the second one is, with the answer of the first one on top of the stack. -/
private theorem follow_settle_andThen (f : Folder σ ε α) {tasks pending : List Task}
    {stack operands : List α} (attempt : Except ε α × σ) (next : α → σ → Except ε α × σ)
    (hnext : ∀ a s, run f ⟨tasks, a :: stack, s⟩ = follow f (settle pending operands (next a s))) :
    follow f (settle tasks stack attempt) =
      follow f (settle pending operands (andThen attempt next)) := by
  obtain ⟨answer, s⟩ := attempt
  cases answer with
  | error x => rfl
  | ok a => exact hnext a s

/-- A machine that visits a tree goes on as if the tree were one question with the answer of the
recursive fold. -/
theorem run_visit (f : Folder σ ε α) (e : Expr) (pending : List Task) (operands : List α)
    (s : σ) :
    run f ⟨.visit e :: pending, operands, s⟩ = follow f (settle pending operands (e.fold f s)) := by
  -- Every level of the tree has other tasks below it and other answers beside it.
  induction e generalizing pending operands s with
  | constant v =>
    rw [run_eq_follow]
    rfl
  | negate e ih =>
    rw [run_eq_follow]
    show run f ⟨.visit e :: .negate :: pending, operands, s⟩ = _
    rw [ih]
    apply follow_settle_andThen
    intro a s
    exact run_eq_follow f _
  | exponent b n ih =>
    rw [run_eq_follow]
    show run f ⟨.visit b :: .exponent n :: pending, operands, s⟩ = _
    rw [ih]
    apply follow_settle_andThen
    intro a s
    exact run_eq_follow f _
  | addition l r ihl ihr =>
    rw [run_eq_follow]
    show run f ⟨.visit l :: .visit r :: .addition :: pending, operands, s⟩ = _
    rw [ihl]
    apply follow_settle_andThen
    intro a s
    -- The right operand is visited on top of the answer for the left one.
    rw [ihr]
    apply follow_settle_andThen
    intro b s
    exact run_eq_follow f _
  | multiplication l r ihl ihr =>
    rw [run_eq_follow]
    show run f ⟨.visit l :: .visit r :: .multiplication :: pending, operands, s⟩ = _
    rw [ihl]
    apply follow_settle_andThen
    intro a s
    rw [ihr]
    apply follow_settle_andThen
    intro b s
    exact run_eq_follow f _

/-- A machine started on a tree hands over what the recursive fold returns. -/
theorem run_start (f : Folder σ ε α) (e : Expr) (s : σ) :
    (start e s).run f = some (e.fold f s) := by
  have h := run_visit f e [] [] s
  generalize hfold : e.fold f s = attempt at h
  obtain ⟨answer, t⟩ := attempt
  rw [start, h]
  cases answer with
  | error x => rfl
  | ok a =>
    -- No task is left, so that the one answer on the stack is handed over.
    show run f ⟨[], [a], t⟩ = _
    rw [run_eq_follow]
    rfl

end Machine

/-! ## Folders that keep a journal -/

namespace Expr

variable {σ τ ε α : Type}

/-- If a folder does what another one does, once its states are read as states of the other, then
so does a fold with it. -/
theorem fold_map (view : τ → σ) {f : Folder σ ε α} {g : Folder τ ε α}
    (hg : ∀ node t, Prod.map id view (g node t) = f node (view t)) (e : Expr) (t : τ) :
    Prod.map id view (e.fold g t) = e.fold f (view t) := by
  -- Both folds go on from the same answer in related states, or both stop.
  have hthen : ∀ {attempt : Except ε α × τ} {attempt' : Except ε α × σ}
      {next : α → τ → Except ε α × τ} {next' : α → σ → Except ε α × σ},
      Prod.map id view attempt = attempt' →
      (∀ a t, Prod.map id view (next a t) = next' a (view t)) →
      Prod.map id view (andThen attempt next) = andThen attempt' next' := by
    intro attempt attempt' next next' hattempt hnext
    subst hattempt
    obtain ⟨answer, t⟩ := attempt
    cases answer with
    | error x => rfl
    | ok a => exact hnext a t
  induction e generalizing t with
  | constant v => exact hg _ t
  | negate e ih => exact hthen (ih t) fun a t => hg _ t
  | exponent b n ih => exact hthen (ih t) fun a t => hg _ t
  | addition l r ihl ihr =>
    exact hthen (ihl t) fun a t => hthen (ihr t) fun b t => hg _ t
  | multiplication l r ihl ihr =>
    exact hthen (ihl t) fun a t => hthen (ihr t) fun b t => hg _ t

/-- Keeping a journal changes neither the answer nor the states of a folder. -/
theorem fold_journaled (f : Folder σ ε α) (e : Expr) (journal : Array (Node α)) (s : σ) :
    Prod.map id Prod.snd (e.fold (journaled f) (journal, s)) = e.fold f s :=
  fold_map Prod.snd (fun _ _ => rfl) e (journal, s)

/-- The questions that the recursive fold asks, in order. -/
def questions (f : Folder σ ε α) (e : Expr) (s : σ) : Array (Node α) :=
  (e.fold (journaled f) (#[], s)).2.1

/-- The questions that the stack machine asks, in order. -/
def questionsStack (f : Folder σ ε α) (e : Expr) (s : σ) : Array (Node α) :=
  (e.foldStack (journaled f) (#[], s)).2.1

/-! ## Agreement -/

theorem foldStack_eq_fold (f : Folder σ ε α) (e : Expr) (s : σ) :
    e.foldStack f s = e.fold f s := by
  unfold foldStack
  simp only [Machine.run_start, Option.get_some]

/-- **The machine does what the recursion does**: for every folder and every state to start from,
both traversals return the same answer or the same failure and leave the folder in the same state,
and they ask the same questions in the same order.  The journals that show this are kept beside
the folder: with them either traversal still answers and ends as without. -/
theorem foldStack_simulates_fold (f : Folder σ ε α) (e : Expr) (s : σ) :
    e.foldStack f s = e.fold f s ∧
      e.questionsStack f s = e.questions f s ∧
      ∀ journal : Array (Node α),
        Prod.map id Prod.snd (e.fold (journaled f) (journal, s)) = e.fold f s ∧
          Prod.map id Prod.snd (e.foldStack (journaled f) (journal, s)) = e.foldStack f s := by
  refine ⟨foldStack_eq_fold f e s, ?_, ?_⟩
  · unfold questionsStack questions
    rw [foldStack_eq_fold]
  · intro journal
    have hfold := fold_journaled f e journal s
    refine ⟨hfold, ?_⟩
    rw [foldStack_eq_fold, foldStack_eq_fold]
    exact hfold

end Expr
end Reckoner
