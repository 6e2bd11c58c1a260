/-!
# Turns of a loop

A loop is given by what one turn may lead to.  `Turns Next n a b` says that `n` turns lead from the
state `a` to the state `b`.  What every turn keeps is kept by all turns together (`Turns.keeps`),
and a number of which every turn takes off one counts the turns (`Turns.add_eq`).
-/

namespace Reckoner

variable {α : Type}

/-- A number of turns, each of which may follow the one before it. -/
inductive Turns (Next : α → α → Prop) : Nat → α → α → Prop where
  | zero (a : α) : Turns Next 0 a a
  | succ {n : Nat} {a b c : α} (first : Next a b) (others : Turns Next n b c) :
      Turns Next (n + 1) a c

namespace Turns

variable {Next : α → α → Prop} {n : Nat} {a b : α}

/-- What holds at the start and is kept by every turn holds wherever the loop gets. -/
theorem keeps {P : α → Prop} (hnext : ∀ a b, Next a b → P a → P b)
    (h : Turns Next n a b) (ha : P a) : P b := by
  induction h with
  | zero a => exact ha
  | succ hfirst _ ih =>
    apply ih
    exact hnext _ _ hfirst ha

/-- What every turn leaves unchanged is the same wherever the loop gets. -/
theorem keeps_eq {β : Type} {view : α → β} (hnext : ∀ a b, Next a b → view b = view a)
    (h : Turns Next n a b) : view b = view a := by
  apply h.keeps (P := fun c => view c = view a)
  · intro c d hturn hc
    rw [hnext c d hturn, hc]
  · rfl

/-- Where every turn takes one off a number, what is left and the turns taken add up to it. -/
theorem add_eq {load : α → Nat} (hnext : ∀ a b, Next a b → load b + 1 = load a)
    (h : Turns Next n a b) : load b + n = load a := by
  induction h with
  | zero a => rfl
  | succ hfirst _ ih =>
    have hload := hnext _ _ hfirst
    omega

/-- A loop that can always go on while something is left takes as many turns as there are left. -/
theorem exists_of_load {load : α → Nat} (hnext : ∀ a b, Next a b → load b + 1 = load a)
    (hgo : ∀ a, load a ≠ 0 → ∃ b, Next a b) (a : α) :
    ∃ b, Turns Next (load a) a b ∧ load b = 0 := by
  generalize hload : load a = k
  induction k generalizing a with
  | zero => exact ⟨a, .zero a, hload⟩
  | succ k ih =>
    obtain ⟨b, hfirst⟩ := hgo a (by omega)
    have hleft : load b = k := by
      have hturn := hnext a b hfirst
      omega
    obtain ⟨c, hothers, hdone⟩ := ih b hleft
    exact ⟨c, .succ hfirst hothers, hdone⟩

end Turns
end Reckoner
