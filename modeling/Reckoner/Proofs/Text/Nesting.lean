import Mathlib.Order.Bounds.Basic
import Mathlib.Data.List.Infix

/-!
# Nested parentheses in a text

A text is read from the left, and `excess` says by how many its opening parentheses outnumber the
closing ones.  `Climbs cs n` says of a text as a whole that it closes what it opens and nothing
else, and that the greatest excess on the way is `n`.  Texts that climb can be joined, and the
higher of them counts (`Climbs.append`); parentheses around one add one to its height
(`Climbs.parenthesised`).  Characters that are no parentheses may be left out
(`climbs_filter_iff`).
-/

namespace Reckoner

/-! ## Prefixes -/

/-- What a joined text starts with lies in the first text, or goes on into the second one. -/
theorem prefix_append_iff {α : Type} {p cs ds : List α} :
    p <+: cs ++ ds ↔ p <+: cs ∨ ∃ q, q <+: ds ∧ p = cs ++ q := by
  constructor
  · intro h
    rcases List.prefix_or_prefix_of_prefix h (List.prefix_append cs ds) with hp | ⟨q, rfl⟩
    · exact Or.inl hp
    · exact Or.inr ⟨q, (List.prefix_append_right_inj cs).mp h, rfl⟩
  · rintro (hp | ⟨q, hq, rfl⟩)
    · exact hp.trans (List.prefix_append cs ds)
    · exact (List.prefix_append_right_inj cs).mpr hq

/-! ## Excess -/

/-- By how many the opening parentheses of a text outnumber the closing ones. -/
def excess (cs : List Char) : Int := cs.count '(' - cs.count ')'

/-- What one text opens another one can close. -/
theorem excess_append (cs ds : List Char) : excess (cs ++ ds) = excess cs + excess ds := by
  simp only [excess, List.count_append]
  omega

/-- An opening parenthesis in front counts one more. -/
theorem excess_opening (cs : List Char) : excess ('(' :: cs) = excess cs + 1 := by
  simp only [excess, List.count_cons_self, List.count_cons_of_ne (by decide : '(' ≠ ')')]
  omega

/-- A closing one behind counts one less. -/
theorem excess_concat_closing (cs : List Char) : excess (cs ++ [')']) = excess cs - 1 := by
  rw [excess_append]
  rfl

/-- Whether a text has no parentheses. -/
def Flat (cs : List Char) : Prop := '(' ∉ cs ∧ ')' ∉ cs

/-- Without parentheses there is nothing to outnumber. -/
theorem Flat.excess_eq {cs : List Char} (h : Flat cs) : excess cs = 0 := by
  rw [excess, List.count_eq_zero.mpr h.1, List.count_eq_zero.mpr h.2]
  rfl

/-! ## Climbing -/

/-- The excesses that are met when a text is read from the left. -/
def heights (cs : List Char) : Set Int := {k | ∃ p, p <+: cs ∧ excess p = k}

/-- Whether the excess of a text comes back to zero, is never below, and gets just as high as is
given. -/
structure Climbs (cs : List Char) (height : Nat) : Prop where
  excess_eq : excess cs = 0
  nonneg : ∀ k ∈ heights cs, 0 ≤ k
  isGreatest : IsGreatest (heights cs) height

theorem heights_append {cs ds : List Char} (hcs : excess cs = 0) :
    heights (cs ++ ds) = heights cs ∪ heights ds := by
  ext k
  constructor
  · rintro ⟨p, hp, rfl⟩
    rcases prefix_append_iff.mp hp with hp | ⟨q, hq, rfl⟩
    · exact Or.inl ⟨p, hp, rfl⟩
    · exact Or.inr ⟨q, hq, by rw [excess_append, hcs, Int.zero_add]⟩
  · rintro (⟨p, hp, rfl⟩ | ⟨q, hq, rfl⟩)
    · exact ⟨p, prefix_append_iff.mpr (Or.inl hp), rfl⟩
    · refine ⟨cs ++ q, prefix_append_iff.mpr (Or.inr ⟨q, hq, rfl⟩), ?_⟩
      rw [excess_append, hcs, Int.zero_add]

/-- Inside parentheses all is one higher; zero is met before them and behind them. -/
theorem heights_parenthesised {cs : List Char} (hcs : excess cs = 0) {k : Int} :
    k ∈ heights ('(' :: (cs ++ [')'])) ↔ k = 0 ∨ k - 1 ∈ heights cs := by
  constructor
  · rintro ⟨p, hp, rfl⟩
    -- The text starts with nothing, with its first parenthesis and something behind it, or it is
    -- complete.
    rcases List.prefix_cons_iff.mp hp with rfl | ⟨q, rfl, hq⟩
    · exact Or.inl rfl
    rcases List.prefix_concat_iff.mp hq with rfl | hq
    · rw [excess_opening, excess_concat_closing, hcs]
      exact Or.inl rfl
    · exact Or.inr ⟨q, hq, by rw [excess_opening]; omega⟩
  · rintro (rfl | ⟨q, hq, hk⟩)
    · exact ⟨[], List.nil_prefix, rfl⟩
    · -- What is met inside is met again behind the parenthesis.
      refine ⟨'(' :: q, ?_, by rw [excess_opening]; omega⟩
      exact List.prefix_cons_iff.mpr (Or.inr ⟨q, rfl, hq.trans (List.prefix_append cs [')'])⟩)

namespace Climbs

/-- A flat text stays at zero. -/
theorem of_flat {cs : List Char} (h : Flat cs) : Climbs cs 0 := by
  -- What a flat text starts with is flat.
  have hheights : ∀ k ∈ heights cs, k = 0 := by
    rintro k ⟨p, hp, rfl⟩
    exact Flat.excess_eq ⟨fun hc => h.1 (hp.subset hc), fun hc => h.2 (hp.subset hc)⟩
  refine ⟨h.excess_eq, fun k hk => (hheights k hk).ge, ?_, fun k hk => (hheights k hk).le⟩
  exact ⟨[], List.nil_prefix, rfl⟩

/-- Of two texts one after the other the higher one counts. -/
theorem append {cs ds : List Char} {m n : Nat} (hcs : Climbs cs m) (hds : Climbs ds n) :
    Climbs (cs ++ ds) (max m n) where
  excess_eq := by rw [excess_append, hcs.excess_eq, hds.excess_eq, Int.add_zero]
  nonneg := by
    rw [heights_append hcs.excess_eq]
    rintro k (hk | hk)
    · exact hcs.nonneg k hk
    · exact hds.nonneg k hk
  isGreatest := by
    -- The greatest excess on the way is that of the higher text.
    have hmax : ((max m n : Nat) : Int) = max (m : Int) (n : Int) := by omega
    rw [heights_append hcs.excess_eq, hmax]
    exact hcs.isGreatest.union hds.isGreatest

/-- Parentheses around a text add one to its height. -/
theorem parenthesised {cs : List Char} {n : Nat} (h : Climbs cs n) :
    Climbs ('(' :: (cs ++ [')'])) (n + 1) where
  excess_eq := by
    rw [excess_opening, excess_concat_closing, h.excess_eq]
    rfl
  nonneg := by
    intro k hk
    rcases (heights_parenthesised h.excess_eq).mp hk with rfl | hk
    · exact Int.le_refl 0
    · have hinside := h.nonneg _ hk
      omega
  isGreatest := by
    constructor
    · -- The top of the text inside is met one higher.
      apply (heights_parenthesised h.excess_eq).mpr
      have htop := h.isGreatest.1
      rw [show ((n + 1 : Nat) : Int) - 1 = n by omega]
      exact Or.inr htop
    · intro k hk
      -- Zero is not above anything.
      rcases (heights_parenthesised h.excess_eq).mp hk with rfl | hk
      · omega
      · have hinside : k - 1 ≤ n := h.isGreatest.2 hk
        omega

/-- Flat texts in front of a text and behind it do not change how high it gets. -/
theorem surrounded {before cs after : List Char} {n : Nat} (hbefore : Flat before)
    (h : Climbs cs n) (hafter : Flat after) : Climbs (before ++ cs ++ after) n := by
  have hclimbs := ((of_flat hbefore).append h).append (of_flat hafter)
  rwa [Nat.zero_max, Nat.max_zero] at hclimbs

end Climbs

/-! ## Leaving characters out -/

section

variable {keep : Char → Bool} (hopening : keep '(' = true) (hclosing : keep ')' = true)
include hopening hclosing

/-- Characters that are no parentheses do not count. -/
theorem excess_filter (cs : List Char) : excess (cs.filter keep) = excess cs := by
  rw [excess, List.count_filter hopening, List.count_filter hclosing, excess]

/-- As long as the parentheses are kept, a text gets as high without some of its characters. -/
theorem heights_filter (cs : List Char) : heights (cs.filter keep) = heights cs := by
  ext k
  constructor
  · -- What the filtered text starts with comes from something that the text starts with.
    rintro ⟨p, ⟨q, hpq⟩, rfl⟩
    obtain ⟨cs₁, cs₂, rfl, rfl, -⟩ := List.filter_eq_append_iff.mp hpq.symm
    exact ⟨cs₁, List.prefix_append cs₁ cs₂, (excess_filter hopening hclosing cs₁).symm⟩
  · rintro ⟨p, hp, rfl⟩
    exact ⟨p.filter keep, hp.filter keep, excess_filter hopening hclosing p⟩

/-- So a text climbs just if it climbs without them. -/
theorem climbs_filter_iff {cs : List Char} {n : Nat} : Climbs (cs.filter keep) n ↔ Climbs cs n := by
  constructor
  · rintro ⟨hexcess, hnonneg, hgreatest⟩
    rw [excess_filter hopening hclosing] at hexcess
    rw [heights_filter hopening hclosing] at hnonneg hgreatest
    exact ⟨hexcess, hnonneg, hgreatest⟩
  · rintro ⟨hexcess, hnonneg, hgreatest⟩
    rw [← excess_filter hopening hclosing] at hexcess
    rw [← heights_filter hopening hclosing] at hnonneg hgreatest
    exact ⟨hexcess, hnonneg, hgreatest⟩

end
end Reckoner
