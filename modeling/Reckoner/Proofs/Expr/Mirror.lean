import Reckoner.Proofs.Fold.Answers

/-!
# Trees with operands exchanged

Two trees are mirrored if one comes from the other by exchanging the operands of any of its sums and
products, at any depth.  Each subtree of the one then has a mirrored counterpart in the other
(`Mirrored.exists_mem`).

A folder that does not look at the order of two operands reaches mirrored roots alike
(`Mirrored.reaches`): it is asked about the same nodes up to this order.  So the value of a tree
stays the same (`Mirrored.answer_eq_ok_iff`).  An error need not, since the operands are asked in
the other order and another one may fail first; but what is refused in one tree is refused, with
the same error, in the other (`Mirrored.exists_refused`).
-/

namespace Reckoner

/-! ## Exchanging operands -/

/-- The same node with its operands in the other order. -/
def Node.swap {α : Type} : Node α → Node α
  | .addition a b => .addition b a
  | .multiplication a b => .multiplication b a
  | node => node

/-- Whether the order of two operands does not matter to a folder. -/
def Folder.Commutes {σ ε α : Type} (f : Folder σ ε α) : Prop :=
  ∀ node, f node.swap = f node

def Algebra.Commutes {α : Type} (a : Algebra α) : Prop :=
  ∀ node, a node.swap = a node

theorem Algebra.Commutes.folder {α : Type} {a : Algebra α} (ha : a.Commutes) :
    a.folder.Commutes := by
  intro node
  funext s
  rw [Algebra.folder, Algebra.folder, ha]

namespace Expr

/-- Whether one tree comes from another by exchanging the operands of some of its sums and
products. -/
inductive Mirrored : Expr → Expr → Prop where
  | constant (v : Int32) : Mirrored (.constant v) (.constant v)
  | negate {e e' : Expr} : Mirrored e e' → Mirrored (.negate e) (.negate e')
  | exponent {b b' : Expr} (n : Int32) :
      Mirrored b b' → Mirrored (.exponent b n) (.exponent b' n)
  -- The operands stay in their places.
  | addition {l l' r r' : Expr} :
      Mirrored l l' → Mirrored r r' → Mirrored (.addition l r) (.addition l' r')
  | multiplication {l l' r r' : Expr} :
      Mirrored l l' → Mirrored r r' → Mirrored (.multiplication l r) (.multiplication l' r')
  -- The operands are exchanged.
  | swappedAddition {l l' r r' : Expr} :
      Mirrored l l' → Mirrored r r' → Mirrored (.addition l r) (.addition r' l')
  | swappedMultiplication {l l' r r' : Expr} :
      Mirrored l l' → Mirrored r r' → Mirrored (.multiplication l r) (.multiplication r' l')

namespace Mirrored

theorem symm {e e' : Expr} (h : e.Mirrored e') : e'.Mirrored e := by
  induction h with
  | constant v => exact .constant v
  | negate _ ih => exact .negate ih
  | exponent n _ ih => exact .exponent n ih
  | addition _ _ ihl ihr => exact .addition ihl ihr
  | multiplication _ _ ihl ihr => exact .multiplication ihl ihr
  | swappedAddition _ _ ihl ihr => exact .swappedAddition ihr ihl
  | swappedMultiplication _ _ ihl ihr => exact .swappedMultiplication ihr ihl

/-- Every operand has a mirrored counterpart among the operands of the other root. -/
theorem exists_operand {e e' : Expr} (h : e.Mirrored e') :
    ∀ o ∈ e.operands, ∃ o' ∈ e'.operands, o.Mirrored o' := by
  cases h with
  | constant v => simp [operands]
  | negate h => simp [operands, h]
  | exponent n h => simp [operands, h]
  | addition hl hr => simp [operands, hl, hr]
  | multiplication hl hr => simp [operands, hl, hr]
  | swappedAddition hl hr => simp [operands, hl, hr]
  | swappedMultiplication hl hr => simp [operands, hl, hr]

/-- Every subtree has a mirrored counterpart. -/
theorem exists_mem {e e' : Expr} (h : e.Mirrored e') {d : Expr} (hd : d ∈ e.postorder) :
    ∃ d' ∈ e'.postorder, d.Mirrored d' := by
  induction e using induction_operands generalizing e' with
  | step e ih =>
    rcases mem_postorder_iff.mp hd with ⟨o, ho, hd⟩ | rfl
    · obtain ⟨o', ho', hmirrored⟩ := h.exists_operand o ho
      obtain ⟨d', hd', hcounterpart⟩ := ih o ho hmirrored hd
      exact ⟨d', mem_postorder_of_operand ho' hd', hcounterpart⟩
    · exact ⟨e', e'.mem_postorder_self, h⟩

/-! ## Folding mirrored trees -/

variable {ε α : Type} {f : Folder Unit ε α}

/-- Trees whose roots are reached alike have the same answers. -/
private theorem answer_eq_ok_of_reaches {e e' : Expr}
    (h : ∀ node, e.Reaches f node → ∃ node', e'.Reaches f node' ∧ f node' = f node) {v : α}
    (hv : e.answer f = .ok v) : e'.answer f = .ok v := by
  obtain ⟨node, hnode, hanswer⟩ := answer_eq_ok_iff.mp hv
  obtain ⟨node', hnode', heq⟩ := h node hnode
  rw [hnode'.answer_eq, heq, hanswer]

/-- The roots of mirrored trees are reached with the same answers, up to their order. -/
theorem reaches (hf : f.Commutes) {e e' : Expr} (h : e.Mirrored e') (node : Node α)
    (hnode : e.Reaches f node) : ∃ node', e'.Reaches f node' ∧ f node' = f node := by
  induction h generalizing node with
  | constant v => exact ⟨node, hnode, rfl⟩
  | negate _ ih =>
    cases hnode with
    | negate ha => exact ⟨_, .negate (answer_eq_ok_of_reaches ih ha), rfl⟩
  | exponent n _ ih =>
    cases hnode with
    | exponent _ ha => exact ⟨_, .exponent n (answer_eq_ok_of_reaches ih ha), rfl⟩
  | addition _ _ ihl ihr =>
    cases hnode with
    | addition ha hb =>
      have hleft := answer_eq_ok_of_reaches ihl ha
      have hright := answer_eq_ok_of_reaches ihr hb
      exact ⟨_, .addition hleft hright, rfl⟩
  | multiplication _ _ ihl ihr =>
    cases hnode with
    | multiplication ha hb =>
      have hleft := answer_eq_ok_of_reaches ihl ha
      have hright := answer_eq_ok_of_reaches ihr hb
      exact ⟨_, .multiplication hleft hright, rfl⟩
  -- The other tree has the answers in the other order, and the folder does not look at it.
  | swappedAddition _ _ ihl ihr =>
    cases hnode with
    | @addition _ _ a b ha hb =>
      have hleft := answer_eq_ok_of_reaches ihl ha
      have hright := answer_eq_ok_of_reaches ihr hb
      exact ⟨_, .addition hright hleft, hf (.addition a b)⟩
  | swappedMultiplication _ _ ihl ihr =>
    cases hnode with
    | @multiplication _ _ a b ha hb =>
      have hleft := answer_eq_ok_of_reaches ihl ha
      have hright := answer_eq_ok_of_reaches ihr hb
      exact ⟨_, .multiplication hright hleft, hf (.multiplication a b)⟩

theorem answer_eq_ok_iff (hf : f.Commutes) {e e' : Expr} (h : e.Mirrored e') {v : α} :
    e'.answer f = .ok v ↔ e.answer f = .ok v :=
  ⟨answer_eq_ok_of_reaches (h.symm.reaches hf), answer_eq_ok_of_reaches (h.reaches hf)⟩

/-- An algebra that does not look at the order of operands has one value on mirrored trees. -/
theorem value_eq {a : Algebra α} (ha : a.Commutes) {e e' : Expr} (h : e.Mirrored e') :
    e'.value a = e.value a := by
  have hanswer := (h.answer_eq_ok_iff ha.folder).mpr (answer_folder a e)
  exact Except.ok.inj ((answer_folder a e').symm.trans hanswer)

/-- What is refused in one of two mirrored trees is refused at its counterpart. -/
theorem refused (hf : f.Commutes) {d d' : Expr} (h : d.Mirrored d') {x : ε}
    (hd : d.Refused f x) : d'.Refused f x := by
  obtain ⟨node, hnode, hx⟩ := hd
  obtain ⟨node', hnode', heq⟩ := h.reaches hf node hnode
  exact ⟨node', hnode', heq ▸ hx⟩

/-- An error that either of two mirrored trees gives comes from subtrees that are refused in
both. -/
theorem exists_refused (hf : f.Commutes) {e e' : Expr} (h : e.Mirrored e') {x : ε}
    (hx : e.answer f = .error x ∨ e'.answer f = .error x) :
    ∃ d ∈ e.postorder, ∃ d' ∈ e'.postorder, d.Mirrored d' ∧ d.Refused f x ∧ d'.Refused f x := by
  -- The relation is symmetric, so that either tree may be the one that fails.
  rcases hx with hx | hx
  · obtain ⟨d, hd, hrefused⟩ := Expr.exists_refused hx
    obtain ⟨d', hd', hmirrored⟩ := h.exists_mem hd
    exact ⟨d, hd, d', hd', hmirrored, hrefused, hmirrored.refused hf hrefused⟩
  · obtain ⟨d', hd', hrefused⟩ := Expr.exists_refused hx
    obtain ⟨d, hd, hmirrored⟩ := h.symm.exists_mem hd'
    exact ⟨d, hd, d', hd', hmirrored.symm, hmirrored.refused hf hrefused, hrefused⟩

end Mirrored
end Expr
end Reckoner
