import Reckoner.Proofs.Evaluation.Arithmetic
import Reckoner.Proofs.Fold.Answers

/-!
# Checked evaluation is exact and complete

`Expr.exact` is the value of a tree over all integers, where nothing overflows.  A tree fits if
it has such a value and the value is a 32-bit integer.  Checked evaluation returns the exact value
if every subtree fits, and otherwise names the kind of the first subtree in post-order that does
not fit.

The induction carries `Expr.Settled`, which says both halves at once.  A failure among the
operands is handed on (`Settled.bind`), and once all operands fit, the node itself decides
(`settled_node`).
-/

namespace Reckoner
namespace Expr

/-! ## Exact values -/

/-- The value of a tree over all integers; `none` where a negative power of zero occurs. -/
def exact : Expr → Option Int
  | .constant v => some v.toInt
  | .negate e => e.exact.map fun i => -i
  | .exponent b n => b.exact.bind fun i => exactPower i n.toInt
  | .addition l r => l.exact.bind fun i => r.exact.map fun j => i + j
  | .multiplication l r => l.exact.bind fun i => r.exact.map fun j => i * j

/-- Whether a tree has an exact value that is a 32-bit integer. -/
def Fits (e : Expr) : Prop := ∃ i, e.exact = some i ∧ InRange i

instance (e : Expr) : Decidable e.Fits :=
  match h : e.exact with
  | some i => decidable_of_iff (InRange i) (by simp [Fits, h])
  | none => isFalse (by simp [Fits, h])

/-- The first subtree in post-order that does not fit. -/
def firstMisfit? (e : Expr) : Option Expr := e.postorder.find? fun d => ¬ d.Fits

/-- A tree fits exactly if its exact value is the value of a 32-bit integer. -/
theorem fits_iff {e : Expr} : e.Fits ↔ ∃ v : Int32, e.exact = some v.toInt := by
  constructor
  · rintro ⟨i, hi, hrange⟩
    refine ⟨Int32.ofInt i, ?_⟩
    rw [toInt_ofInt_of_inRange hrange, hi]
  · rintro ⟨v, hv⟩
    exact ⟨v.toInt, hv, inRange_toInt v⟩

theorem firstMisfit?_eq_none_iff {e : Expr} :
    e.firstMisfit? = none ↔ ∀ d ∈ e.postorder, d.Fits := by
  simp [firstMisfit?]

/-- A constant fits, so that what does not fit is none. -/
theorem kind_ne_constant_of_firstMisfit? {e d : Expr} (h : e.firstMisfit? = some d) :
    d.kind ≠ .constant := by
  have hmisfit : ¬ d.Fits := by simpa using List.find?_some h
  intro hkind
  cases d with
  | constant v => exact hmisfit (fits_iff.mpr ⟨v, rfl⟩)
  | negate e => cases hkind
  | exponent b n => cases hkind
  | addition l r => cases hkind
  | multiplication l r => cases hkind

private theorem find?_misfit_of_fits {ds : List Expr} (h : ∀ d ∈ ds, d.Fits) :
    ds.find? (fun d => ¬ d.Fits) = none := by
  simpa using h

/-! ## The invariant -/

/-- The checked value of a node whose operands have been evaluated. -/
def checkedNode (node : Node Int32) : Except EvalError Int32 := (checkedArithmetic node ()).1

/-- What is known of a tree when its checked evaluation has ended: with a value, no subtree is a
misfit and the value is exact; with an error, the error names the first misfit. -/
def Settled (e : Expr) : Except EvalError Int32 → Prop
  | .ok v => e.firstMisfit? = none ∧ e.exact = some v.toInt
  | .error x => ∃ d, e.firstMisfit? = some d ∧ x = .overflow d.kind

/-- A tree is settled by its operands up to the first failure: what comes before an operand fits,
so that the operand's first misfit is the tree's first misfit. -/
theorem Settled.bind {e operand : Expr} (before after : List Expr)
    (horder : e.postorder = before ++ operand.postorder ++ after)
    (hbefore : ∀ d ∈ before, d.Fits) {attempt : Except EvalError Int32}
    {next : Int32 → Except EvalError Int32} (h : operand.Settled attempt)
    (hnext : ∀ v, operand.Settled (.ok v) → e.Settled (next v)) :
    e.Settled (attempt.bind next) := by
  cases attempt with
  -- Nothing is decided yet.
  | ok v => exact hnext v h
  | error x =>
    obtain ⟨d, hd, hx⟩ := h
    refine ⟨d, ?_, hx⟩
    -- Nothing is found before the operand, and its own first misfit is found next.
    unfold firstMisfit? at hd ⊢
    rw [horder, List.find?_append, List.find?_append, find?_misfit_of_fits hbefore, hd]
    rfl

/-- Once everything below a node fits, the node itself decides. -/
theorem settled_node {e : Expr} (below : List Expr) (horder : e.postorder = below ++ [e])
    (hbelow : ∀ d ∈ below, d.Fits) (node : Node Int32) (hkind : node.kind = e.kind)
    (hvalue : ∀ v, exactValue node = some v ↔ e.exact = some v.toInt) :
    e.Settled (checkedNode node) := by
  have hmisfit : e.firstMisfit? = [e].find? (fun d => ¬ d.Fits) := by
    unfold firstMisfit?
    rw [horder, List.find?_append, find?_misfit_of_fits hbelow]
    rfl
  unfold checkedNode checkedArithmetic
  cases hnode : exactValue node with
  | some v =>
    -- The node fits as well, so that there is no misfit at all.
    have hexact := (hvalue v).mp hnode
    have hfits : e.Fits := fits_iff.mpr ⟨v, hexact⟩
    refine ⟨?_, hexact⟩
    rw [hmisfit]
    simp [hfits]
  | none =>
    -- The node is the first misfit, since nothing below it is one.
    have hfits : ¬ e.Fits := by
      intro h
      obtain ⟨v, hv⟩ := fits_iff.mp h
      rw [(hvalue v).mpr hv] at hnode
      cases hnode
    refine ⟨e, ?_, congrArg EvalError.overflow hkind⟩
    rw [hmisfit]
    simp [hfits]

/-- Both binary nodes are settled in the same way: the left operand, the right one, the node. -/
theorem settled_binary {e l r : Expr} (horder : e.postorder = l.postorder ++ r.postorder ++ [e])
    (hl : l.Settled l.checkedEvaluate) (hr : r.Settled r.checkedEvaluate)
    {node : Int32 → Int32 → Node Int32} (hkind : ∀ a b, (node a b).kind = e.kind)
    (hvalue : ∀ a b, l.exact = some a.toInt → r.exact = some b.toInt →
      ∀ v, exactValue (node a b) = some v ↔ e.exact = some v.toInt) :
    e.Settled (l.checkedEvaluate.bind fun a =>
      r.checkedEvaluate.bind fun b => checkedNode (node a b)) := by
  have hleft : e.postorder = [] ++ l.postorder ++ (r.postorder ++ [e]) := by
    rw [horder, List.nil_append, List.append_assoc]
  -- Nothing comes before the left operand, and only the left one before the right one.
  apply Settled.bind [] (r.postorder ++ [e]) hleft (by simp) hl
  rintro a ⟨hlmisfit, hlexact⟩
  have hlfits := firstMisfit?_eq_none_iff.mp hlmisfit
  apply Settled.bind l.postorder [e] horder hlfits hr
  rintro b ⟨hrmisfit, hrexact⟩
  have hrfits := firstMisfit?_eq_none_iff.mp hrmisfit
  apply settled_node (l.postorder ++ r.postorder) horder _ (node a b) (hkind a b)
    (hvalue a b hlexact hrexact)
  intro d hd
  rcases List.mem_append.mp hd with hd | hd
  · exact hlfits d hd
  · exact hrfits d hd

/-- Checked evaluation settles every tree. -/
theorem settled_checkedEvaluate (e : Expr) : e.Settled e.checkedEvaluate := by
  show e.Settled (e.answer checkedArithmetic)
  -- Operands are settled in the order in which they are asked, and then the root.
  induction e with
  | constant v =>
    apply settled_node [] rfl (by simp) (.constant v) rfl
    intro w
    simp [exactValue, exact, Int32.toInt_inj]
  | negate e ih =>
    rw [answer_negate]
    apply Settled.bind [] [negate e] rfl (by simp) ih
    rintro a ⟨hmisfit, hexact⟩
    apply settled_node e.postorder rfl (firstMisfit?_eq_none_iff.mp hmisfit) (.negate a) rfl
    intro v
    rw [exact, hexact]
    simp [exactValue, toInt32?_eq_some_iff]
  | exponent b n ih =>
    rw [answer_exponent]
    apply Settled.bind [] [exponent b n] rfl (by simp) ih
    rintro a ⟨hmisfit, hexact⟩
    apply settled_node b.postorder rfl (firstMisfit?_eq_none_iff.mp hmisfit) (.exponent a n) rfl
    intro v
    rw [exact, hexact]
    exact checkedPower_eq_some_iff
  | addition l r ihl ihr =>
    rw [answer_addition]
    apply settled_binary rfl ihl ihr (fun _ _ => rfl)
    intro a b ha hb v
    rw [exact, ha, hb]
    simp [exactValue, toInt32?_eq_some_iff]
  | multiplication l r ihl ihr =>
    rw [answer_multiplication]
    apply settled_binary rfl ihl ihr (fun _ _ => rfl)
    intro a b ha hb v
    rw [exact, ha, hb]
    simp [exactValue, toInt32?_eq_some_iff]

/-! ## Exactness -/

/-- **Checked evaluation is exact and complete**: it returns a value exactly if every subtree fits
and the value is the exact one, and it fails exactly with the kind of the first subtree in
post-order that does not fit, which is never a constant.  It does not matter which function
computes the powers in floating point before they are narrowed. -/
theorem checkedEvaluate_exact (e : Expr) :
    (∀ v, e.checkedEvaluate = .ok v ↔
      (∀ d ∈ e.postorder, d.Fits) ∧ e.exact = some v.toInt) ∧
    (∀ k, e.checkedEvaluate = .error (.overflow k) ↔
      ∃ d, e.firstMisfit? = some d ∧ d.kind = k) ∧
    e.checkedEvaluate ≠ .error (.overflow .constant) ∧
    ∀ power, ComputesPowers power →
      (e.fold (checkedArithmeticBy power) ()).1 = e.checkedEvaluate := by
  have hsettled := settled_checkedEvaluate e
  have herror : ∀ k, e.checkedEvaluate = .error (.overflow k) ↔
      ∃ d, e.firstMisfit? = some d ∧ d.kind = k := by
    intro k
    constructor
    · intro h
      rw [h] at hsettled
      obtain ⟨d, hd, hk⟩ := hsettled
      exact ⟨d, hd, (EvalError.overflow.inj hk).symm⟩
    · rintro ⟨d, hd, rfl⟩
      cases h : e.checkedEvaluate with
      | ok v =>
        rw [h] at hsettled
        rw [hsettled.1] at hd
        cases hd
      | error x =>
        -- There is one first misfit, so that the error names the kind of this one.
        rw [h] at hsettled
        obtain ⟨d', hd', rfl⟩ := hsettled
        rw [Option.some.inj (hd.symm.trans hd')]
  refine ⟨?value, herror, ?noConstant, ?computed⟩
  case value =>
    intro v
    rw [← firstMisfit?_eq_none_iff]
    constructor
    · intro h
      rwa [h] at hsettled
    · rintro ⟨hmisfit, hexact⟩
      cases h : e.checkedEvaluate with
      | ok w =>
        rw [h] at hsettled
        have hvalue := Option.some.inj (hsettled.2.symm.trans hexact)
        rw [Int32.toInt_inj.mp hvalue]
      | error x =>
        rw [h] at hsettled
        obtain ⟨d, hd, -⟩ := hsettled
        rw [hmisfit] at hd
        cases hd
  case noConstant =>
    intro h
    obtain ⟨d, hd, hkind⟩ := (herror .constant).mp h
    exact kind_ne_constant_of_firstMisfit? hd hkind
  case computed =>
    intro power hpower
    rw [checkedArithmeticBy_eq hpower]
    rfl

-- An exponent of zero does not mask an overflow in the base.
example : (exponent (addition (constant 2147483647) (constant 1)) 0).checkedEvaluate =
    .error (.overflow .addition) := by decide

end Expr
end Reckoner
