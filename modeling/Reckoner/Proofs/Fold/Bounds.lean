import Reckoner.Proofs.Expr.Measure
import Reckoner.Proofs.Fold.Calls
import Reckoner.Proofs.Turns

/-!
# The stack machine keeps within bounds

A machine started on a tree never misses an operand, stops, and leaves nothing behind; and the depth
of the tree bounds its stacks (`Expr.foldStack_keepsBounds`).  This holds at every state that it
reaches, for every folder.

What a step can do to the stacks is said once (`Machine.stacks_of_step`): it opens a tree, or it
answers a task with answers from the top of the stack.  Two numbers are read off the stacks that no
step raises: how high the answers can come to be piled up by the pending tasks (`Machine.tallest`),
and how many tasks can come to be pending at once (`Machine.longest`).  When a machine starts they
are the depth of the tree, and twice the depth less one.
-/

namespace Reckoner

/-! ## Tasks -/

namespace Task

/-- The number of answers that a task takes off the stack. -/
def arity : Task → Nat
  | .visit _ => 0
  | .negate | .exponent _ => 1
  | .addition | .multiplication => 2

/-- The tasks that take the place of a visit, unless it is answered at once. -/
def opened : Task → Option (List Task)
  | .visit (.negate e) => some [.visit e, .negate]
  | .visit (.exponent b n) => some [.visit b, .exponent n]
  | .visit (.addition l r) => some [.visit l, .visit r, .addition]
  | .visit (.multiplication l r) => some [.visit l, .visit r, .multiplication]
  | _ => none

/-- How far a task lets the answers rise above those that are there when it is begun. -/
def rise : Task → Nat
  | .visit tree => tree.depth
  | _ => 0

/-- How many tasks a task can come to be. -/
def span : Task → Nat
  | .visit tree => 2 * tree.depth - 1
  | _ => 1

/-- Every task is at least itself. -/
theorem span_pos (task : Task) : 0 < task.span := by
  cases task with
  | visit tree =>
    have hpos := tree.depth_pos
    simp only [span]
    omega
  | negate | exponent _ | addition | multiplication => simp [span]

end Task

namespace Machine

variable {σ ε α : Type}

/-- Whether one step leads from one state to another. -/
def Next (f : Folder σ ε α) (m m' : Machine σ α) : Prop := m.step f = .next m'

/-! ## What a step does -/

/-- A step of a sound machine opens a task, or asks the folder about a node whose operands are the
answers that the task takes off the stack. -/
theorem step_cases (f : Folder σ ε α) {m : Machine σ α} (hm : m.Sound) {task : Task}
    {pending : List Task} (h : m.pending = task :: pending) :
    (∃ tasks, task.opened = some tasks ∧
      m.step f = .next ⟨tasks ++ pending, m.operands, m.state⟩) ∨
    ∃ taken rest question, taken.length = task.arity ∧ m.operands = taken ++ rest ∧
      m.step f = settle pending rest (f question m.state) := by
  obtain ⟨tasks, operands, s⟩ := m
  obtain rfl : tasks = task :: pending := h
  unfold Sound at hm
  cases task with
  | visit tree =>
    cases tree with
    -- A constant is the only tree that is answered when it is visited.
    | constant v => exact .inr ⟨[], operands, .constant v, rfl, rfl, rfl⟩
    | negate e => exact .inl ⟨_, rfl, rfl⟩
    | exponent b n => exact .inl ⟨_, rfl, rfl⟩
    | addition l r => exact .inl ⟨_, rfl, rfl⟩
    | multiplication l r => exact .inl ⟨_, rfl, rfl⟩
  -- A sound machine holds as many answers as the task takes.
  | negate =>
    cases operands with
    | nil => simp [feasible] at hm
    | cons a rest => exact .inr ⟨[a], rest, .negate a, rfl, rfl, rfl⟩
  | exponent n =>
    cases operands with
    | nil => simp [feasible] at hm
    | cons a rest => exact .inr ⟨[a], rest, .exponent a n, rfl, rfl, rfl⟩
  | addition =>
    rcases operands with _ | ⟨b, _ | ⟨a, rest⟩⟩
    · simp [feasible] at hm
    · simp [feasible] at hm
    · exact .inr ⟨[b, a], rest, .addition a b, rfl, rfl, rfl⟩
  | multiplication =>
    rcases operands with _ | ⟨b, _ | ⟨a, rest⟩⟩
    · simp [feasible] at hm
    · simp [feasible] at hm
    · exact .inr ⟨[b, a], rest, .multiplication a b, rfl, rfl, rfl⟩

/-- A sound machine with no task left holds one answer and hands it over. -/
theorem step_of_pending_eq_nil (f : Folder σ ε α) {m : Machine σ α} (hm : m.Sound)
    (h : m.pending = []) : ∃ a, m.operands = [a] ∧ m.step f = .halt (.ok a) m.state := by
  obtain ⟨pending, operands, s⟩ := m
  obtain rfl : pending = [] := h
  -- Neither no answer nor more than one is sound without tasks.
  rcases operands with _ | ⟨a, _ | ⟨b, rest⟩⟩
  · simp [Sound, feasible] at hm
  · exact ⟨a, rfl, rfl⟩
  · simp [Sound, feasible] at hm

/-- A sound machine holds the answers that its next task takes. -/
theorem arity_le {m : Machine σ α} (hm : m.Sound) {task : Task} {pending : List Task}
    (h : m.pending = task :: pending) : task.arity ≤ m.operands.length := by
  unfold Sound at hm
  rw [h] at hm
  cases task with
  | visit tree => exact Nat.zero_le _
  | negate | exponent _ | addition | multiplication =>
    simp only [feasible, Bool.and_eq_true, decide_eq_true_eq] at hm
    exact hm.1

/-- A machine that goes on after a call has its answer on the stack. -/
theorem settle_eq_next {pending : List Task} {operands : List α} {attempt : Except ε α × σ}
    {m : Machine σ α} (h : settle pending operands attempt = .next m) :
    ∃ a s, m = ⟨pending, a :: operands, s⟩ := by
  obtain ⟨_ | a, s⟩ := attempt
  · cases h
  · cases h
    exact ⟨a, s, rfl⟩

/-- What a step does to the stacks: it opens a task, or puts an answer in the place of the answers
that the task takes. -/
theorem stacks_of_step {f : Folder σ ε α} {m m' : Machine σ α} (hm : m.Sound)
    (h : m.step f = .next m') :
    ∃ task pending, m.pending = task :: pending ∧
      ((∃ tasks, task.opened = some tasks ∧
          m'.pending = tasks ++ pending ∧ m'.operands = m.operands) ∨
        ∃ taken rest a, taken.length = task.arity ∧ m.operands = taken ++ rest ∧
          m'.pending = pending ∧ m'.operands = a :: rest) := by
  cases hpending : m.pending with
  -- With no task left the machine would have halted.
  | nil =>
    obtain ⟨a, -, hstep⟩ := step_of_pending_eq_nil f hm hpending
    rw [hstep] at h
    cases h
  | cons task pending =>
    refine ⟨task, pending, rfl, ?_⟩
    rcases step_cases f hm hpending with
      ⟨tasks, hopened, hstep⟩ | ⟨taken, rest, question, htaken, hoperands, hstep⟩
    · rw [hstep] at h
      cases h
      exact .inl ⟨tasks, hopened, rfl, rfl⟩
    · -- The folder may also have failed, but then there is no next state.
      rw [hstep] at h
      obtain ⟨a, s, rfl⟩ := settle_eq_next h
      exact .inr ⟨taken, rest, a, htaken, hoperands, rfl, rfl⟩

/-! ## How high answers are piled up -/

/-- The greatest number of answers that tasks pile up, begun on top of a number of answers. -/
def tallest : List Task → Nat → Nat
  | [], height => height
  | task :: pending, height =>
    max (height + task.rise) (tallest pending (height - task.arity + 1))

/-- The answers that are there count as well. -/
theorem le_tallest (pending : List Task) (height : Nat) : height ≤ tallest pending height := by
  cases pending with
  | nil => exact Nat.le_refl height
  | cons task pending =>
    simp only [tallest]
    omega

/-- The operands of a tree are less deep than the tree, which makes up for the answer that the right
operand finds below its own. -/
theorem tallest_of_opened {task : Task} {tasks : List Task} (h : task.opened = some tasks)
    (pending : List Task) (height : Nat) :
    tallest (tasks ++ pending) height ≤ tallest (task :: pending) height := by
  cases task with
  | visit tree =>
    cases tree with
    | constant v => cases h
    | negate e =>
      cases h
      simp only [List.cons_append, List.nil_append, tallest, Task.rise, Task.arity,
        Expr.depth_negate, Nat.sub_zero, Nat.add_zero, Nat.add_sub_cancel]
      omega
    | exponent b n =>
      cases h
      simp only [List.cons_append, List.nil_append, tallest, Task.rise, Task.arity,
        Expr.depth_exponent, Nat.sub_zero, Nat.add_zero, Nat.add_sub_cancel]
      omega
    -- The right operand is begun with one answer more, that of the left one.
    | addition l r =>
      have hpos := r.depth_pos
      cases h
      simp only [List.cons_append, List.nil_append, tallest, Task.rise, Task.arity,
        Expr.depth_addition, Nat.sub_zero, Nat.add_zero, Nat.reduceSubDiff]
      omega
    | multiplication l r =>
      have hpos := r.depth_pos
      cases h
      simp only [List.cons_append, List.nil_append, tallest, Task.rise, Task.arity,
        Expr.depth_multiplication, Nat.sub_zero, Nat.add_zero, Nat.reduceSubDiff]
      omega
  | negate | exponent _ | addition | multiplication => cases h

/-- No step lets the answers come to be piled up higher. -/
theorem tallest_of_step {f : Folder σ ε α} {m m' : Machine σ α} (hm : m.Sound)
    (h : m.step f = .next m') :
    tallest m'.pending m'.operands.length ≤ tallest m.pending m.operands.length := by
  obtain ⟨task, pending, hpending, hcases⟩ := stacks_of_step hm h
  rw [hpending]
  rcases hcases with
    ⟨tasks, hopened, hpending', hoperands'⟩ |
    ⟨taken, rest, a, htaken, hoperands, hpending', hoperands'⟩
  · rw [hpending', hoperands']
    exact tallest_of_opened hopened pending m.operands.length
  · -- Once the task is begun, the answers that it has taken are gone.
    have hheight : (taken ++ rest).length - task.arity + 1 = rest.length + 1 := by
      rw [List.length_append, htaken, Nat.add_sub_cancel_left]
    rw [hpending', hoperands', hoperands, tallest, hheight]
    exact Nat.le_max_right _ _

/-! ## How many tasks are pending -/

/-- The greatest number of tasks that are pending at once until all are done. -/
def longest : List Task → Nat
  | [] => 0
  | task :: pending => max (task.span + pending.length) (longest pending)

/-- The tasks that are pending now count as well. -/
theorem length_le_longest (pending : List Task) : pending.length ≤ longest pending := by
  cases pending with
  | nil => exact Nat.le_refl 0
  | cons task pending =>
    have hpos := task.span_pos
    simp only [longest, List.length_cons]
    omega

/-- While the left operand is visited, the right one and the task of closing the node are pending
below it: two tasks more, for a tree that is one level less deep. -/
theorem longest_of_opened {task : Task} {tasks : List Task} (h : task.opened = some tasks)
    (pending : List Task) : longest (tasks ++ pending) ≤ longest (task :: pending) := by
  cases task with
  | visit tree =>
    cases tree with
    | constant v => cases h
    | negate e =>
      have hpos := e.depth_pos
      cases h
      simp only [List.cons_append, List.nil_append, List.length_cons, longest, Task.span,
        Expr.depth_negate]
      omega
    | exponent b n =>
      have hpos := b.depth_pos
      cases h
      simp only [List.cons_append, List.nil_append, List.length_cons, longest, Task.span,
        Expr.depth_exponent]
      omega
    -- The left operand has two tasks behind it, the right one only one.
    | addition l r =>
      have hposl := l.depth_pos
      have hposr := r.depth_pos
      cases h
      simp only [List.cons_append, List.nil_append, List.length_cons, longest, Task.span,
        Expr.depth_addition]
      omega
    | multiplication l r =>
      have hposl := l.depth_pos
      have hposr := r.depth_pos
      cases h
      simp only [List.cons_append, List.nil_append, List.length_cons, longest, Task.span,
        Expr.depth_multiplication]
      omega
  | negate | exponent _ | addition | multiplication => cases h

/-- No step lets more tasks come to be pending at once. -/
theorem longest_of_step {f : Folder σ ε α} {m m' : Machine σ α} (hm : m.Sound)
    (h : m.step f = .next m') : longest m'.pending ≤ longest m.pending := by
  obtain ⟨task, pending, hpending, hcases⟩ := stacks_of_step hm h
  rw [hpending]
  rcases hcases with ⟨tasks, hopened, hpending', -⟩ | ⟨taken, rest, a, -, -, hpending', -⟩
  · rw [hpending']
    exact longest_of_opened hopened pending
  · -- Without its first task there is no more to do than with it.
    rw [hpending', longest]
    exact Nat.le_max_right _ _

/-! ## Reachable states -/

/-- The invariant of a machine that was started on a tree. -/
structure Bounded (e : Expr) (m : Machine σ α) : Prop where
  sound : m.Sound
  tallest_le : tallest m.pending m.operands.length ≤ e.depth
  longest_le : longest m.pending ≤ 2 * e.depth - 1

/-- At the start there is a single task, the visit of the tree. -/
theorem bounded_start (e : Expr) (s : σ) : (start e s : Machine σ α).Bounded e := by
  have hpos := e.depth_pos
  constructor
  case sound => exact sound_start e s
  case tallest_le =>
    simp only [start, tallest, Task.rise, Task.arity, List.length_nil]
    omega
  case longest_le =>
    simp only [start, longest, Task.span, List.length_nil]
    omega

/-- All three parts of the invariant go from a state to the next one. -/
theorem bounded_of_step {f : Folder σ ε α} {e : Expr} (m m' : Machine σ α) (h : Next f m m')
    (hm : m.Bounded e) : m'.Bounded e where
  sound := sound_of_step hm.sound h
  tallest_le := Nat.le_trans (tallest_of_step hm.sound h) hm.tallest_le
  longest_le := Nat.le_trans (longest_of_step hm.sound h) hm.longest_le

/-- Every task is a step, so that no load means no task. -/
theorem load_eq_zero_iff {pending : List Task} : load pending = 0 ↔ pending = [] := by
  cases pending with
  | nil => simp [load]
  | cons task pending =>
    have hpos : 0 < taskLoad task := by
      cases task with
      | visit tree => cases tree <;> simp [taskLoad, Expr.workload]
      | negate | exponent _ | addition | multiplication => simp [taskLoad]
    simp only [load, reduceCtorEq, iff_false]
    omega

/-- What is known of a machine a number of steps after it was started on a tree. -/
structure KeepsBounds (e : Expr) (n : Nat) (m : Machine σ α) : Prop where
  /-- The next task finds the answers that it takes. -/
  operands : ∀ task pending, m.pending = task :: pending → task.arity ≤ m.operands.length
  /-- With no task left there is one answer, and nothing else is left behind. -/
  answer : m.pending = [] → m.operands.length = 1
  /-- There is one step for every node, and one more for every node that has operands. -/
  steps : n ≤ e.size + e.innerNodes
  done : m.pending = [] ↔ n = e.size + e.innerNodes
  length_pending : m.pending.length ≤ 2 * e.depth - 1
  length_operands : m.operands.length ≤ e.depth

variable {f : Folder σ ε α} {e : Expr} {s : σ} {n : Nat} {m : Machine σ α}

/-- The invariant holds at every state that is reached. -/
theorem bounded_of_turns (h : Turns (Next f) n (start e s) m) : m.Bounded e :=
  h.keeps bounded_of_step (bounded_start e s)

/-- Every step takes one off the load, which is that of the tree at the start. -/
theorem load_of_turns (h : Turns (Next f) n (start e s) m) :
    load m.pending + n = e.size + e.innerNodes := by
  have hnext : ∀ m m' : Machine σ α, Next f m m' → load m'.pending + 1 = load m.pending :=
    fun _ _ hstep => load_of_step hstep
  rw [h.add_eq hnext, ← Expr.workload_eq]
  rfl

/-- From the invariant and the load everything follows that is known of a state. -/
theorem keepsBounds_of_turns (h : Turns (Next f) n (start e s) m) : m.KeepsBounds e n := by
  have hbounded := bounded_of_turns h
  have hload := load_of_turns h
  constructor
  case operands => exact fun task pending hpending => arity_le hbounded.sound hpending
  case answer =>
    intro hpending
    obtain ⟨a, hoperands, -⟩ := step_of_pending_eq_nil f hbounded.sound hpending
    rw [hoperands, List.length_singleton]
  case steps => omega
  case done =>
    rw [← load_eq_zero_iff]
    omega
  case length_pending => exact Nat.le_trans (length_le_longest m.pending) hbounded.longest_le
  case length_operands => exact Nat.le_trans (le_tallest m.pending _) hbounded.tallest_le

/-! ## The end of a run -/

/-- A run that ends has reached a state whose step ends it. -/
theorem exists_turns_of_run {m : Machine σ α} {outcome : Except ε α} {t : σ}
    (h : run f m = some (outcome, t)) :
    ∃ n m', Turns (Next f) n m m' ∧ m'.step f = .halt outcome t := by
  fun_induction run f m with
  -- One step more than from the next state.
  | case1 m m' hstep ih =>
    obtain ⟨n, m'', hturns, hhalt⟩ := ih h
    exact ⟨n + 1, m'', .succ hstep hturns, hhalt⟩
  | case2 m outcome s hstep =>
    cases h
    exact ⟨0, m, .zero m, hstep⟩
  | case3 m hstep => cases h

/-- A sound machine that halts with an answer has nothing left but this answer. -/
theorem eq_of_step_eq_halt {m : Machine σ α} (hm : m.Sound) {a : α} {t : σ}
    (h : m.step f = .halt (.ok a) t) : m = ⟨[], [a], t⟩ := by
  cases hpending : m.pending with
  | nil =>
    obtain ⟨b, hoperands, hstep⟩ := step_of_pending_eq_nil f hm hpending
    rw [hstep] at h
    cases h
    rw [← hpending, ← hoperands]
  | cons task pending =>
    -- As long as a task is left, a machine halts only with a failure of the folder.
    rcases step_cases f hm hpending with
      ⟨tasks, -, hstep⟩ | ⟨taken, rest, question, -, -, hstep⟩
    · rw [hstep] at h
      cases h
    · rw [hstep] at h
      generalize f question m.state = attempt at h
      obtain ⟨_ | b, s⟩ := attempt <;> cases h

end Machine

namespace Expr

variable {σ ε α : Type}

/-- A fold ends in a state that is reached. -/
theorem exists_turns_foldStack (f : Folder σ ε α) (e : Expr) (s : σ) :
    ∃ n m, Turns (Machine.Next f) n (.start e s) m ∧
      m.step f = .halt (e.foldStack f s).1 (e.foldStack f s).2 := by
  apply Machine.exists_turns_of_run
  rw [foldStack_eq_fold]
  exact Machine.run_start f e s

/-- A fold in which no call fails returns an answer. -/
theorem exists_answer_of_calls (f : Folder σ ε α) (e : Expr) (s : σ)
    (h : ∀ c ∈ e.callsStack f s, c.Succeeds) : ∃ a, (e.foldStack f s).1 = .ok a := by
  rw [callsStack, foldStack_eq_fold] at h
  rw [foldStack_eq_fold]
  exact (recorded_calls f e s (finds_answerAt _)).succeeds_iff.mpr h

/-- **The stack machine keeps within bounds**, for every folder and every tree.  At every state that
it reaches no operand is missing, at most as many steps have been taken as there are nodes and nodes
with operands, the tasks are at most twice the depth of the tree less one, and the answers at most
the depth.  It always comes to a state whose step ends the fold.  If no call fails this is the state
after the last of these steps, with no task left and with the answer of the fold as the only one. -/
theorem foldStack_keepsBounds (f : Folder σ ε α) (e : Expr) (s : σ) :
    (∀ n m, Turns (Machine.Next f) n (.start e s) m →
      m.step f ≠ .underflow ∧ m.KeepsBounds e n) ∧
    (∃ n m, Turns (Machine.Next f) n (.start e s) m ∧
      m.step f = .halt (e.foldStack f s).1 (e.foldStack f s).2) ∧
    ((∀ c ∈ e.callsStack f s, c.Succeeds) → ∃ a,
      Turns (Machine.Next f) (e.size + e.innerNodes) (.start e s)
        ⟨[], [a], (e.foldStack f s).2⟩ ∧
      (e.foldStack f s).1 = .ok a) := by
  refine ⟨?reached, exists_turns_foldStack f e s, ?succeeds⟩
  case reached =>
    intro n m h
    have hsound := (Machine.bounded_of_turns h).sound
    exact ⟨Machine.step_ne_underflow hsound, Machine.keepsBounds_of_turns h⟩
  case succeeds =>
    intro hcalls
    obtain ⟨a, ha⟩ := exists_answer_of_calls f e s hcalls
    obtain ⟨n, m, hturns, hhalt⟩ := exists_turns_foldStack f e s
    rw [ha] at hhalt
    obtain rfl := Machine.eq_of_step_eq_halt (Machine.bounded_of_turns hturns).sound hhalt
    -- No task is left, so that all steps have been taken.
    have hn := (Machine.keepsBounds_of_turns hturns).done.mp rfl
    rw [hn] at hturns
    exact ⟨a, hturns, ha⟩

end Expr
end Reckoner
