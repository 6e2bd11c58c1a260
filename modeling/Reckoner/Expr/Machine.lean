import Reckoner.Expr.Fold

/-!
# Folding with an explicit stack

The same fold without recursion, for trees of any depth.  A `Machine` holds the tasks still to
be done and the answers not yet used.  `Machine.step` performs one task; if a task asks for an
answer that is not there, the step says so instead of making one up.  The main statements are
that the tasks of a machine started on a tree always find their operands (`run_start_isSome`),
so that `Expr.foldStack` needs no answer of its own, and that every step lowers the workload
(`load_of_step`), so that the run ends.
-/

namespace Reckoner

inductive Task where
  /-- Answer a whole tree. -/
  | visit (tree : Expr)
  /-- Close a node whose operands have been answered. -/
  | negate
  | exponent (power : Int32)
  | addition
  | multiplication

/-- What is still to be done, what has been answered (latest first), and the folder's state. -/
structure Machine (σ α : Type) where
  pending : List Task
  operands : List α
  state : σ

/-- What one step leads to. -/
inductive Move (σ ε α : Type) where
  | next (machine : Machine σ α)
  | halt (outcome : Except ε α) (state : σ)
  /-- A task did not find its operands. -/
  | underflow

namespace Machine

variable {σ ε α : Type}

/-- The machine that is about to answer a tree. -/
def start (e : Expr) (s : σ) : Machine σ α := ⟨[.visit e], [], s⟩

/-- Puts a new answer on the stack, or halts with a failure. -/
def settle (pending : List Task) (operands : List α) : Except ε α × σ → Move σ ε α
  | (.ok a, s) => .next ⟨pending, a :: operands, s⟩
  | (.error x, s) => .halt (.error x) s

/-- Opens a tree: a constant is answered at once, and any other node is replaced by its operands
in order and the task of closing it. -/
def visit (f : Folder σ ε α) (tree : Expr) (pending : List Task) (operands : List α) (s : σ) :
    Move σ ε α :=
  match tree with
  | .constant v => settle pending operands (f (.constant v) s)
  | .negate e => .next ⟨.visit e :: .negate :: pending, operands, s⟩
  | .exponent b n => .next ⟨.visit b :: .exponent n :: pending, operands, s⟩
  | .addition l r => .next ⟨.visit l :: .visit r :: .addition :: pending, operands, s⟩
  | .multiplication l r =>
    .next ⟨.visit l :: .visit r :: .multiplication :: pending, operands, s⟩

def closeUnary (f : Folder σ ε α) (node : α → Node α) (pending : List Task) (operands : List α)
    (s : σ) : Move σ ε α :=
  match operands with
  | a :: operands => settle pending operands (f (node a) s)
  | [] => .underflow

/-- Closes a node with two operands; the right one was answered last. -/
def closeBinary (f : Folder σ ε α) (node : α → α → Node α) (pending : List Task)
    (operands : List α) (s : σ) : Move σ ε α :=
  match operands with
  | b :: a :: operands => settle pending operands (f (node a b) s)
  | _ => .underflow

/-- Performs the first task; with none left, hands over the latest answer. -/
def step (f : Folder σ ε α) (m : Machine σ α) : Move σ ε α :=
  match m.pending with
  | [] =>
    match m.operands with
    | a :: _ => .halt (.ok a) m.state
    | [] => .underflow
  | .visit tree :: pending => visit f tree pending m.operands m.state
  | .negate :: pending => closeUnary f .negate pending m.operands m.state
  | .exponent n :: pending => closeUnary f (.exponent · n) pending m.operands m.state
  | .addition :: pending => closeBinary f .addition pending m.operands m.state
  | .multiplication :: pending => closeBinary f .multiplication pending m.operands m.state

/-! ## Every step lowers the workload -/

/-- The number of steps that a task leads to. -/
def taskLoad : Task → Nat
  | .visit tree => tree.workload
  | _ => 1

def load : List Task → Nat
  | [] => 0
  | task :: pending => taskLoad task + load pending

/-- An answer is put on the stack without a new task. -/
theorem load_of_settle {pending : List Task} {operands : List α} {attempt : Except ε α × σ}
    {m : Machine σ α} (h : settle pending operands attempt = .next m) :
    load m.pending = load pending := by
  rcases attempt with ⟨_ | a, s⟩ <;> simp only [settle, Move.next.injEq, reduceCtorEq] at h
  subst h
  rfl

/-- Opening a tree is one step of those that the tree leads to. -/
theorem load_of_visit {f : Folder σ ε α} {tree : Expr} {pending : List Task} {operands : List α}
    {s : σ} {m : Machine σ α} (h : visit f tree pending operands s = .next m) :
    load m.pending + 1 = load (.visit tree :: pending) := by
  cases tree <;> simp only [visit, Move.next.injEq] at h
  -- A constant is answered at once; every other node makes room for its parts.
  case constant => rw [load_of_settle h]; simp [load, taskLoad, Expr.workload]; omega
  all_goals subst h; simp [load, taskLoad, Expr.workload]; omega

/-- Closing a node leaves the tasks behind it as they are. -/
theorem load_of_closeUnary {f : Folder σ ε α} {node : α → Node α} {pending : List Task}
    {operands : List α} {s : σ} {m : Machine σ α}
    (h : closeUnary f node pending operands s = .next m) : load m.pending = load pending := by
  unfold closeUnary at h
  split at h
  · exact load_of_settle h
  · cases h

theorem load_of_closeBinary {f : Folder σ ε α} {node : α → α → Node α} {pending : List Task}
    {operands : List α} {s : σ} {m : Machine σ α}
    (h : closeBinary f node pending operands s = .next m) : load m.pending = load pending := by
  unfold closeBinary at h
  split at h
  · exact load_of_settle h
  · cases h

/-- A step takes exactly one unit off the workload. -/
theorem load_of_step {f : Folder σ ε α} {m m' : Machine σ α} (h : m.step f = .next m') :
    load m'.pending + 1 = load m.pending := by
  unfold step at h
  split at h
  -- With no task left the machine halts.
  next => split at h <;> cases h
  next heq => rw [load_of_visit h, heq]
  next heq => rw [load_of_closeUnary h, heq]; simp [load, taskLoad]; omega
  next heq => rw [load_of_closeUnary h, heq]; simp [load, taskLoad]; omega
  next heq => rw [load_of_closeBinary h, heq]; simp [load, taskLoad]; omega
  next heq => rw [load_of_closeBinary h, heq]; simp [load, taskLoad]; omega

/-! ## Running -/

/-- Steps until the machine halts; `none` if a task did not find its operands. -/
def run (f : Folder σ ε α) (m : Machine σ α) : Option (Except ε α × σ) :=
  match _h : m.step f with
  | .next m' => run f m'
  | .halt outcome s => some (outcome, s)
  | .underflow => none
termination_by load m.pending
decreasing_by have := load_of_step _h; omega

/-! ## No task misses its operands -/

/-- Whether the tasks can all be done on a stack of a given height and leave one answer. -/
def feasible : List Task → Nat → Bool
  | [], height => height == 1
  | .visit _ :: pending, height => feasible pending (height + 1)
  | .negate :: pending, height => 1 ≤ height && feasible pending height
  | .exponent _ :: pending, height => 1 ≤ height && feasible pending height
  -- Two answers are taken off and one is put back.
  | .addition :: pending, height => 2 ≤ height && feasible pending (height - 1)
  | .multiplication :: pending, height => 2 ≤ height && feasible pending (height - 1)

def Sound (m : Machine σ α) : Prop := feasible m.pending m.operands.length = true

/-- A tree is visited on an empty stack and leaves one answer. -/
theorem sound_start (e : Expr) (s : σ) : (start e s : Machine σ α).Sound := rfl

/-- A failure ends the run, so that only an answer goes on. -/
theorem sound_of_settle {pending : List Task} {operands : List α} {attempt : Except ε α × σ}
    {m : Machine σ α} (hp : feasible pending (operands.length + 1) = true)
    (h : settle pending operands attempt = .next m) : m.Sound := by
  rcases attempt with ⟨_ | a, s⟩ <;> simp only [settle, Move.next.injEq, reduceCtorEq] at h
  subst h
  exact hp

/-- Putting an answer on the stack asks for none. -/
theorem settle_ne_underflow {pending : List Task} {operands : List α}
    {attempt : Except ε α × σ} : settle pending operands attempt ≠ .underflow := by
  rcases attempt with ⟨_ | a, s⟩ <;> simp [settle]

/-- Opening a tree makes tasks that leave one answer where the visit would have. -/
theorem sound_of_visit {f : Folder σ ε α} {tree : Expr} {pending : List Task}
    {operands : List α} {s : σ} {m : Machine σ α}
    (hp : feasible pending (operands.length + 1) = true)
    (h : visit f tree pending operands s = .next m) : m.Sound := by
  cases tree <;> simp only [visit, Move.next.injEq] at h
  case constant => exact sound_of_settle hp h
  -- The operands are visited first, so that each of them leaves the answer that is closed with.
  all_goals subst h; simp [Sound, feasible, hp]

/-- A visit asks for no answer. -/
theorem visit_ne_underflow {f : Folder σ ε α} {tree : Expr} {pending : List Task}
    {operands : List α} {s : σ} : visit f tree pending operands s ≠ .underflow := by
  cases tree <;> simp [visit, settle_ne_underflow]

theorem sound_of_closeUnary {f : Folder σ ε α} {node : α → Node α} {pending : List Task}
    {operands : List α} {s : σ} {m : Machine σ α}
    (hp : feasible pending operands.length = true)
    (h : closeUnary f node pending operands s = .next m) : m.Sound := by
  cases operands with
  | nil => cases h
  | cons a operands => exact sound_of_settle hp h

/-- One answer is enough to close a node with one operand. -/
theorem closeUnary_ne_underflow {f : Folder σ ε α} {node : α → Node α} {pending : List Task}
    {operands : List α} {s : σ} (hl : 1 ≤ operands.length) :
    closeUnary f node pending operands s ≠ .underflow := by
  cases operands with
  | nil => cases hl
  | cons a operands => exact settle_ne_underflow

theorem sound_of_closeBinary {f : Folder σ ε α} {node : α → α → Node α} {pending : List Task}
    {operands : List α} {s : σ} {m : Machine σ α}
    (hp : feasible pending (operands.length - 1) = true)
    (h : closeBinary f node pending operands s = .next m) : m.Sound := by
  rcases operands with _ | ⟨b, _ | ⟨a, operands⟩⟩
  · cases h
  · cases h
  · -- Two answers make place for one.
    exact sound_of_settle hp h

/-- Two answers are enough to close a node with two operands. -/
theorem closeBinary_ne_underflow {f : Folder σ ε α} {node : α → α → Node α}
    {pending : List Task} {operands : List α} {s : σ} (hl : 2 ≤ operands.length) :
    closeBinary f node pending operands s ≠ .underflow := by
  rcases operands with _ | ⟨b, _ | ⟨a, operands⟩⟩
  · cases hl
  · simp at hl
  · exact settle_ne_underflow

/-- Whatever the task is, what it leaves fits the tasks behind it. -/
theorem sound_of_step {f : Folder σ ε α} {m m' : Machine σ α} (hm : m.Sound)
    (h : m.step f = .next m') : m'.Sound := by
  unfold Sound at hm
  unfold step at h
  split at h
  -- With no task left the machine does not go on.
  next => split at h <;> cases h
  all_goals
    next heq =>
      rw [heq] at hm
      simp only [feasible, Bool.and_eq_true, decide_eq_true_eq] at hm
      first
        | exact sound_of_visit hm h
        | exact sound_of_closeUnary hm.2 h
        | exact sound_of_closeBinary hm.2 h

/-- A sound machine's next task finds its operands. -/
theorem step_ne_underflow {f : Folder σ ε α} {m : Machine σ α} (hm : m.Sound) :
    m.step f ≠ .underflow := by
  unfold Sound at hm
  unfold step
  split
  next heq =>
    -- With no task left there is one answer, which is handed over.
    rw [heq] at hm
    simp only [feasible, beq_iff_eq] at hm
    split
    · simp
    next hnil => simp [hnil] at hm
  all_goals
    next heq =>
      rw [heq] at hm
      simp only [feasible, Bool.and_eq_true, decide_eq_true_eq] at hm
      first
        | exact visit_ne_underflow
        | exact closeUnary_ne_underflow hm.1
        | exact closeBinary_ne_underflow hm.1

/-- A sound machine ends its run with an outcome. -/
theorem run_isSome {f : Folder σ ε α} {m : Machine σ α} (hm : m.Sound) :
    (m.run f).isSome = true := by
  -- Soundness goes from each state of the run to the next.
  fun_induction run f m with
  | case1 m m' h ih => exact ih (sound_of_step hm h)
  | case2 m outcome s h => rfl
  | case3 m h => exact absurd h (step_ne_underflow hm)

theorem run_start_isSome (f : Folder σ ε α) (e : Expr) (s : σ) :
    ((start e s).run f).isSome = true :=
  run_isSome (sound_start e s)

end Machine

namespace Expr

/-- Asks a folder about every node in the same order as `fold`, on an explicit stack. -/
def foldStack {σ ε α : Type} (f : Folder σ ε α) (e : Expr) (s : σ) : Except ε α × σ :=
  ((Machine.start e s).run f).get (Machine.run_start_isSome f e s)

def valueStack {α : Type} (a : Algebra α) (e : Expr) : α :=
  certain (e.foldStack a.folder ()).1

end Expr

end Reckoner
