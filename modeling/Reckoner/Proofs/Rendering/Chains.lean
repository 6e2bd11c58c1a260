import Reckoner.Proofs.Evaluation.Agreement
import Reckoner.Proofs.Rendering.Marks

/-!
# What a normalised rendering forgets

A tree is a chain of negations and powers over a core: a constant, a sum or a product.  In a
normalised rendering the negations stand in front of the core and the powers behind it
(`Expr.marks_eq`), so that each of the two keeps its order, but the order between them is lost.
The parenthesis behind a right operand tells in addition whether the operand is a power.  Trees
that agree in all this are `ReadAlike`.

Nothing else is lost (`Expr.normalize_render_eq_iff`).  The marks of a tree can be read off the
front of a row of marks in one way up to `ReadAlike`, provided that the row does not go on with the
caret of a further power (`Expr.uniquelyMarked`).  The induction is over cores
(`Expr.induction_on_core`): a chain is read at once, and then the two operands of its core.
-/

namespace Reckoner

/-! ## Chains -/

/-- What stands below the negations and powers at the top of a tree. -/
inductive Core where
  | constant (value : Int32)
  | binary (operator : Operator) (left right : Expr)

/-- Negations and powers over a core.  The power that is taken first is the first one. -/
structure Chain where
  negations : Nat
  powers : List Int32
  core : Core

namespace Expr

/-- A tree as a chain. -/
def chain : Expr → Chain
  | .constant v => ⟨0, [], .constant v⟩
  | .negate e => ⟨e.chain.negations + 1, e.chain.powers, e.chain.core⟩
  | .exponent b n => ⟨b.chain.negations, b.chain.powers ++ [n], b.chain.core⟩
  | .addition l r => ⟨0, [], .binary .addition l r⟩
  | .multiplication l r => ⟨0, [], .binary .multiplication l r⟩

/-- Induction on a tree whose steps lead from the operands of a core to all chains over it. -/
theorem induction_on_core {P : Expr → Prop}
    (constant : ∀ e v, e.chain.core = .constant v → P e)
    (binary : ∀ e operator l r, e.chain.core = .binary operator l r → P l → P r → P e)
    (e : Expr) : P e := by
  -- A tree shares its core with the operand of a negation or power at its top.
  have hshared : ∀ d : Expr, d.chain.core = e.chain.core → P d := by
    induction e with
    | constant v =>
      intro d hd
      exact constant d v hd
    | negate e ih => exact ih
    | exponent b n ih => exact ih
    | addition l r ihl ihr =>
      intro d hd
      exact binary d .addition l r hd (ihl l rfl) (ihr r rfl)
    | multiplication l r ihl ihr =>
      intro d hd
      exact binary d .multiplication l r hd (ihl l rfl) (ihr r rfl)
  exact hshared e rfl

/-! ## Trees that read alike -/

/-- Whether two trees have the same chains over cores that read alike.  Right operands are in
addition both powers, or neither of them is. -/
inductive ReadAlike : Expr → Expr → Prop where
  | constant {e e' : Expr} {v : Int32}
      (negations : e.chain.negations = e'.chain.negations)
      (powers : e.chain.powers = e'.chain.powers)
      (core : e.chain.core = .constant v) (core' : e'.chain.core = .constant v) :
      ReadAlike e e'
  | binary {e e' l l' r r' : Expr} {operator : Operator}
      (negations : e.chain.negations = e'.chain.negations)
      (powers : e.chain.powers = e'.chain.powers)
      (core : e.chain.core = .binary operator l r) (core' : e'.chain.core = .binary operator l' r')
      (left : ReadAlike l l') (right : ReadAlike r r')
      (outermost : r.kind = .exponent ↔ r'.kind = .exponent) :
      ReadAlike e e'

end Expr

/-! ## Marks of a chain -/

def Core.marks : Core → List Mark
  | .constant v => [.integer v]
  | .binary operator l r => binaryMarks operator l.marks r.marks r.closingMark

/-- The powers behind a core. -/
def powerMarks (powers : List Int32) : List Mark :=
  powers.flatMap fun n => [.sign .caret, .integer n]

/-- A power more stands behind the others. -/
theorem powerMarks_concat (powers : List Int32) (n : Int32) :
    powerMarks (powers ++ [n]) = powerMarks powers ++ [.sign .caret, .integer n] := by
  simp [powerMarks]

/-- The marks of a chain: its negations, its core and its powers. -/
def Chain.marks (c : Chain) : List Mark :=
  List.replicate c.negations (.sign .minus) ++ (c.core.marks ++ powerMarks c.powers)

namespace Expr

/-- The marks of a tree are those of its chain. -/
theorem marks_eq (e : Expr) : e.marks = e.chain.marks := by
  induction e with
  | constant v => rfl
  | negate e ih =>
    rw [marks, ih]
    rfl
  -- A further power comes last, behind the negations, the core and the other powers.
  | exponent b n ih =>
    rw [marks, ih, Chain.marks, Chain.marks, chain, powerMarks_concat]
    simp
  | addition l r => simp [marks, Chain.marks, chain, Core.marks, powerMarks]
  | multiplication l r => simp [marks, Chain.marks, chain, Core.marks, powerMarks]

/-- The closing parenthesis tells whether the right operand is a power, and nothing else. -/
theorem closingMark_eq_iff {r r' : Expr} :
    r.closingMark = r'.closingMark ↔ (r.kind = .exponent ↔ r'.kind = .exponent) := by
  unfold closingMark
  split <;> split <;> simp [*]

/-- Trees that read alike have the same marks. -/
theorem ReadAlike.marks_eq {e e' : Expr} (h : e.ReadAlike e') : e.marks = e'.marks := by
  induction h with
  | constant negations powers core core' =>
    rw [Expr.marks_eq, Expr.marks_eq, Chain.marks, Chain.marks, negations, powers, core, core']
  -- The operands have the same marks, and so do the parentheses behind them.
  | binary negations powers core core' _ _ outermost ihl ihr =>
    rw [Expr.marks_eq, Expr.marks_eq, Chain.marks, Chain.marks, negations, powers, core, core',
      Core.marks, Core.marks, ihl, ihr, closingMark_eq_iff.mpr outermost]

end Expr

/-! ## Reading a chain off marks -/

/-- Whether marks do not start with a given one. -/
def NotFirst (m : Mark) (ms : List Mark) : Prop := ms.head? ≠ some m

/-- What stands first is told by the first mark. -/
theorem notFirst_cons {m m' : Mark} (h : m' ≠ m) (ms : List Mark) : NotFirst m (m' :: ms) :=
  fun hfirst => h (Option.some.inj hfirst)

/-- Behind a run of one mark nothing else is left, if what follows does not start with it. -/
theorem replicate_append_inj {m : Mark} {k k' : Nat} {ms ms' : List Mark} (hms : NotFirst m ms)
    (hms' : NotFirst m ms') (h : List.replicate k m ++ ms = List.replicate k' m ++ ms') :
    k = k' ∧ ms = ms' := by
  induction k generalizing k' with
  | zero =>
    cases k' with
    | zero => exact ⟨rfl, h⟩
    | succ k' =>
      -- A run that goes on would be continued in what follows.
      have hrun : ms = List.replicate (k' + 1) m ++ ms' := h
      exact absurd (by rw [hrun]; rfl) hms
  | succ k ih =>
    cases k' with
    | zero =>
      have hrun : List.replicate (k + 1) m ++ ms = ms' := h
      exact absurd (by rw [← hrun]; rfl) hms'
    | succ k' =>
      rw [List.replicate_succ, List.replicate_succ, List.cons_append, List.cons_append] at h
      obtain ⟨hcount, hrest⟩ := ih (List.cons.inj h).2
      exact ⟨congrArg (· + 1) hcount, hrest⟩

/-- Likewise behind a run of powers, if no further power follows. -/
theorem powerMarks_append_inj {powers powers' : List Int32} {ms ms' : List Mark}
    (hms : NotFirst (.sign .caret) ms) (hms' : NotFirst (.sign .caret) ms')
    (h : powerMarks powers ++ ms = powerMarks powers' ++ ms') : powers = powers' ∧ ms = ms' := by
  induction powers generalizing powers' with
  | nil =>
    cases powers' with
    | nil => exact ⟨rfl, h⟩
    | cons n powers' =>
      -- What follows would start with a caret.
      have hrun : ms = powerMarks (n :: powers') ++ ms' := h
      exact absurd (by rw [hrun]; rfl) hms
  | cons n powers ih =>
    cases powers' with
    | nil =>
      have hrun : powerMarks (n :: powers) ++ ms = ms' := h
      exact absurd (by rw [← hrun]; rfl) hms'
    | cons n' powers' =>
      -- Each power is a caret and its exponent.
      simp only [powerMarks, List.flatMap_cons, List.cons_append, List.nil_append, List.cons.injEq,
        true_and, Mark.integer.injEq] at h
      obtain ⟨hpowers, hrest⟩ := ih h.2
      exact ⟨congrArg₂ List.cons h.1 hpowers, hrest⟩

/-- A core starts with an integer or with a parenthesis. -/
theorem Core.notFirst_marks_append (c : Core) (ms : List Mark) :
    NotFirst (.sign .minus) (c.marks ++ ms) := by
  cases c with
  | constant v => exact notFirst_cons (by simp) _
  | binary operator l r => exact notFirst_cons (by simp) _

namespace Expr

/-- Whether the marks of a tree can be read off marks that do not go on with a further power. -/
def UniquelyMarked (e : Expr) : Prop :=
  ∀ (e' : Expr) (ms ms' : List Mark), NotFirst (.sign .caret) ms → NotFirst (.sign .caret) ms' →
    e.marks ++ ms = e'.marks ++ ms' → e.ReadAlike e' ∧ ms = ms'

/-- Two operands can be read with the operator between them and the parenthesis behind them. -/
private theorem binaryMarks_append_inj {l r l' r' : Expr} (hl : l.UniquelyMarked)
    (hr : r.UniquelyMarked) {operator operator' : Operator} {ms ms' : List Mark}
    (h : binaryMarks operator l.marks r.marks r.closingMark ++ ms =
      binaryMarks operator' l'.marks r'.marks r'.closingMark ++ ms') :
    operator = operator' ∧ l.ReadAlike l' ∧ r.ReadAlike r' ∧ r.closingMark = r'.closingMark ∧
      ms = ms' := by
  simp only [binaryMarks, List.cons_append, List.append_assoc, List.cons.injEq, true_and,
    List.nil_append] at h
  -- The mark behind the right operand is a parenthesis of either sort.
  have hclosing : ∀ r : Expr, r.closingMark ≠ .sign .caret := by
    intro r
    unfold closingMark
    split <;> simp
  -- Neither the operator nor the closing parenthesis is the caret of a further power.
  obtain ⟨hleft, h⟩ := hl _ _ _ (notFirst_cons (by simp) _) (notFirst_cons (by simp) _) h
  simp only [List.cons.injEq, Mark.sign.injEq, Sign.operator.injEq] at h
  obtain ⟨hoperator, h⟩ := h
  obtain ⟨hright, h⟩ := hr _ _ _ (notFirst_cons (hclosing r) _) (notFirst_cons (hclosing r') _) h
  obtain ⟨hclosed, h⟩ := List.cons.inj h
  exact ⟨hoperator, hleft, hright, hclosed, h⟩

/-- Every row of marks can be read in one way, up to trees that read alike. -/
theorem uniquelyMarked (e : Expr) : e.UniquelyMarked := by
  -- A chain is read in the order in which it is written: its negations, its core, its powers.
  have hchain : ∀ (d d' : Expr) (ms ms' : List Mark), d.marks ++ ms = d'.marks ++ ms' →
      d.chain.negations = d'.chain.negations ∧
        d.chain.core.marks ++ (powerMarks d.chain.powers ++ ms) =
          d'.chain.core.marks ++ (powerMarks d'.chain.powers ++ ms') := by
    intro d d' ms ms' h
    rw [marks_eq, marks_eq, Chain.marks, Chain.marks, List.append_assoc, List.append_assoc,
      List.append_assoc, List.append_assoc] at h
    exact replicate_append_inj (Core.notFirst_marks_append _ _) (Core.notFirst_marks_append _ _) h
  induction e using induction_on_core with
  | constant e v hcore =>
    intro e' ms ms' hms hms' h
    obtain ⟨hnegations, h⟩ := hchain e e' ms ms' h
    rw [hcore] at h
    -- The first mark tells which core it is.
    cases hcore' : e'.chain.core with
    | constant w =>
      rw [hcore'] at h
      obtain ⟨hvalue, h⟩ := List.cons.inj h
      obtain ⟨hpowers, hrest⟩ := powerMarks_append_inj hms hms' h
      rw [← Mark.integer.inj hvalue] at hcore'
      exact ⟨.constant hnegations hpowers hcore hcore', hrest⟩
    | binary operator l r =>
      rw [hcore'] at h
      -- An integer is not an opening parenthesis.
      cases (List.cons.inj h).1
  | binary e operator l r hcore ihl ihr =>
    intro e' ms ms' hms hms' h
    obtain ⟨hnegations, h⟩ := hchain e e' ms ms' h
    rw [hcore] at h
    cases hcore' : e'.chain.core with
    | constant w =>
      rw [hcore'] at h
      cases (List.cons.inj h).1
    | binary operator' l' r' =>
      rw [hcore'] at h
      obtain ⟨hoperator, hleft, hright, hclosing, h⟩ := binaryMarks_append_inj ihl ihr h
      obtain ⟨hpowers, hrest⟩ := powerMarks_append_inj hms hms' h
      rw [← hoperator] at hcore'
      -- The closing parentheses are attached in both or in neither.
      have houtermost := closingMark_eq_iff.mp hclosing
      exact ⟨.binary hnegations hpowers hcore hcore' hleft hright houtermost, hrest⟩

/-- Trees read alike just if their marks are the same. -/
theorem readAlike_iff_marks_eq {e e' : Expr} : e.ReadAlike e' ↔ e.marks = e'.marks := by
  constructor
  · exact ReadAlike.marks_eq
  · intro h
    have hnil : NotFirst (.sign .caret) [] := by simp [NotFirst]
    exact (uniquelyMarked e e' [] [] hnil hnil (congrArg (· ++ []) h)).1

/-! ## Exchanging negations and powers -/

/-- Two operands under an operator. -/
def ofOperator : Operator → Expr → Expr → Expr
  | .addition => .addition
  | .multiplication => .multiplication

/-- Whether a tree comes from another one by exchanging negations with the powers next to them.
A right operand stays a power if it is one, and does not become one. -/
inductive Exchanged : Expr → Expr → Prop where
  | refl (e : Expr) : Exchanged e e
  | symm {e e' : Expr} : Exchanged e e' → Exchanged e' e
  | trans {e e' e'' : Expr} : Exchanged e e' → Exchanged e' e'' → Exchanged e e''
  | exchange (e : Expr) (n : Int32) : Exchanged (.negate (.exponent e n)) (.exponent (.negate e) n)
  | negate {e e' : Expr} : Exchanged e e' → Exchanged (.negate e) (.negate e')
  | exponent {b b' : Expr} (n : Int32) :
      Exchanged b b' → Exchanged (.exponent b n) (.exponent b' n)
  | operands {l l' r r' : Expr} (operator : Operator) :
      Exchanged l l' → Exchanged r r' → (r.kind = .exponent ↔ r'.kind = .exponent) →
      Exchanged (ofOperator operator l r) (ofOperator operator l' r')

/-- The marks of a binary node, for either operator. -/
theorem marks_ofOperator (operator : Operator) (l r : Expr) :
    (ofOperator operator l r).marks = binaryMarks operator l.marks r.marks r.closingMark := by
  cases operator <;> rfl

/-- Exchanges leave the marks as they are. -/
theorem Exchanged.marks_eq {e e' : Expr} (h : e.Exchanged e') : e.marks = e'.marks := by
  induction h with
  | refl e => rfl
  | symm _ ih => exact ih.symm
  | trans _ _ ih ih' => exact ih.trans ih'
  -- The minus sign stands in front and the caret behind, whichever is taken first.
  | exchange e n => rfl
  | negate _ ih => rw [marks, marks, ih]
  | exponent n _ ih => rw [marks, marks, ih]
  | operands operator _ _ outermost ihl ihr =>
    rw [marks_ofOperator, marks_ofOperator, ihl, ihr, closingMark_eq_iff.mpr outermost]

end Expr

def Core.toExpr : Core → Expr
  | .constant v => .constant v
  | .binary operator l r => .ofOperator operator l r

/-- The tree of a chain with all negations above all powers. -/
def Chain.toExpr (c : Chain) : Expr :=
  Expr.negate^[c.negations] (c.powers.foldl .exponent c.core.toExpr)

namespace Expr

/-- A power can be moved below any number of negations. -/
private theorem exchanged_exponent_iterate (k : Nat) (e : Expr) (n : Int32) :
    Exchanged (.exponent (negate^[k] e) n) (negate^[k] (.exponent e n)) := by
  induction k with
  | zero => exact .refl _
  -- The power changes places with one negation after the other.
  | succ k ih =>
    rw [Function.iterate_succ_apply', Function.iterate_succ_apply']
    exact .trans (.symm (.exchange _ n)) (.negate ih)

/-- In every chain the negations can be brought to the top. -/
theorem exchanged_toExpr_chain (e : Expr) : e.Exchanged e.chain.toExpr := by
  induction e with
  | constant v => exact .refl _
  | negate e ih =>
    have htop : (negate e).chain.toExpr = negate e.chain.toExpr :=
      Function.iterate_succ_apply' negate _ _
    rw [htop]
    exact .negate ih
  | exponent b n ih =>
    apply Exchanged.trans (.exponent n ih)
    -- The last power of the chain has come to stand above the negations.
    have hlast : (exponent b n).chain.toExpr = negate^[b.chain.negations]
        (.exponent (b.chain.powers.foldl .exponent b.chain.core.toExpr) n) := by
      simp [Chain.toExpr, chain, List.foldl_append]
    rw [hlast]
    exact exchanged_exponent_iterate _ _ n
  | addition l r => exact .refl _
  | multiplication l r => exact .refl _

end Expr

/-- Chains are exchanged if they differ in cores that are exchanged. -/
theorem Chain.exchanged_toExpr {c c' : Chain} (negations : c.negations = c'.negations)
    (powers : c.powers = c'.powers) (core : c.core.toExpr.Exchanged c'.core.toExpr) :
    c.toExpr.Exchanged c'.toExpr := by
  have hpowers : ∀ (ns : List Int32) {e e' : Expr}, e.Exchanged e' →
      (ns.foldl Expr.exponent e).Exchanged (ns.foldl Expr.exponent e') := by
    intro ns
    induction ns with
    | nil => exact id
    | cons n ns ih => exact fun h => ih (.exponent n h)
  have hnegations : ∀ (k : Nat) {e e' : Expr}, e.Exchanged e' →
      (Expr.negate^[k] e).Exchanged (Expr.negate^[k] e') := by
    intro k
    induction k with
    | zero => exact id
    | succ k ih => exact fun h => ih (.negate h)
  unfold toExpr
  rw [negations, powers]
  exact hnegations _ (hpowers _ core)

namespace Expr

/-- Trees that read alike differ in the order of negations and powers, and in nothing else. -/
theorem readAlike_iff_exchanged {e e' : Expr} : e.ReadAlike e' ↔ e.Exchanged e' := by
  constructor
  · intro h
    -- Both are exchanged with the trees that have all negations at the top of each chain.
    induction h with
    | @constant e e' v negations powers core core' =>
      have hcore : e.chain.core.toExpr.Exchanged e'.chain.core.toExpr := by
        rw [core, core']
        exact .refl _
      have hchain := Chain.exchanged_toExpr negations powers hcore
      exact .trans (exchanged_toExpr_chain e) (.trans hchain (.symm (exchanged_toExpr_chain e')))
    | @binary e e' l l' r r' operator negations powers core core' _ _ outermost ihl ihr =>
      have hcore : e.chain.core.toExpr.Exchanged e'.chain.core.toExpr := by
        rw [core, core']
        exact .operands operator ihl ihr outermost
      have hchain := Chain.exchanged_toExpr negations powers hcore
      exact .trans (exchanged_toExpr_chain e) (.trans hchain (.symm (exchanged_toExpr_chain e')))
  · intro h
    exact readAlike_iff_marks_eq.mpr h.marks_eq

/-- **What a normalised rendering forgets** is the order of negations and powers.  Two trees have
the same normalised rendering exactly if they read alike, chain by chain, and this is to say that
they differ by exchanges of negations and powers.  What is forgotten matters: the negated square of
3 and the square of -3 have one normalised rendering, but every evaluator tells them apart. -/
theorem normalize_render_eq_iff :
    (∀ e e' : Expr, normalize e.render = normalize e'.render ↔ e.ReadAlike e') ∧
    (∀ e e' : Expr, e.ReadAlike e' ↔ e.Exchanged e') ∧
    normalize (negate (exponent (constant 3) 2)).render = "- 3 ^ 2" ∧
    normalize (exponent (negate (constant 3)) 2).render = "- 3 ^ 2" ∧
    ∀ evaluator : Evaluator,
      (evaluator.evaluate (negate (exponent (constant 3) 2))).outcome = .ok (-9) ∧
      (evaluator.evaluate (exponent (negate (constant 3)) 2)).outcome = .ok 9 := by
  refine ⟨?kernel, ?exchanges, ?negatedSquare, ?squaredNegation, ?values⟩
  case kernel =>
    intro e e'
    rw [normalize_render_eq_iff_marks_eq, readAlike_iff_marks_eq]
  case exchanges =>
    intro e e'
    exact readAlike_iff_exchanged
  case negatedSquare => decide
  case squaredNegation => decide
  case values =>
    intro evaluator
    -- Neither value overflows, so that all evaluators agree on them.
    obtain ⟨strategy, overflow⟩ := evaluator
    rw [Evaluator.outcome_evaluate, Evaluator.outcome_evaluate]
    cases overflow with
    | wrapping =>
      rw [Evaluator.outcome_wrapping, Evaluator.outcome_wrapping]
      decide
    | checked =>
      rw [Evaluator.outcome_checked, Evaluator.outcome_checked]
      decide

end Expr
end Reckoner
