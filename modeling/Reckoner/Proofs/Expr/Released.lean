import Mathlib.Data.List.Perm.Basic
import Reckoner.Expr.Release
import Reckoner.Proofs.Expr.Places
import Reckoner.Proofs.Turns

/-!
# Releasing a tree turn by turn

The loop that releases a tree takes a subtree off its stack, moves the subtrees of its root onto the
stack, and lets go of what is left.  Here its turns are followed with the places of the subtrees, so
that equal subtrees are told apart.

The invariant is that the nodes taken so far and the nodes of the subtrees on the stack are the
nodes below the root that are no constants, each once (`Release.Intact`).  A subtree that waits on
the stack is still what it was in the tree; when it has been taken, its root is let go with nothing
but constants left below it (`Expr.bare_detachOperands`).  To drop it therefore starts no loop that
has anything to do, and drops are nested three deep at most, whatever the tree
(`Expr.dropsWithin`).
-/

namespace Reckoner
namespace Expr

/-! ## What is left of a node -/

/-- Whether all operands of a tree are constants. -/
def Bare (e : Expr) : Prop := ∀ o ∈ e.operands, o.kind = .constant

/-- What takes the place of an operand is a constant. -/
theorem kind_detach (e : Expr) : e.detach.1.kind = .constant := by
  cases e <;> rfl

/-- A constant is not moved out. -/
theorem detach_of_constant {e : Expr} (h : e.kind = .constant) : e.detach = (e, []) := by
  cases e with
  | constant v => rfl
  | _ => cases h

/-- What is let go has nothing but constants below its root. -/
theorem bare_detachOperands (e : Expr) : e.detachOperands.1.Bare := by
  cases e <;> simp [Bare, detachOperands, operands, kind_detach]

/-- From a tree that is bare nothing is moved out. -/
theorem Bare.detachOperands_eq {e : Expr} (h : e.Bare) : e.detachOperands = (e, []) := by
  cases e with
  | constant v => rfl
  -- Every operand is a constant and stays where it is.
  | negate e =>
    have he := detach_of_constant (h e (by simp [operands]))
    rw [detachOperands, he]
  | exponent b n =>
    have hb := detach_of_constant (h b (by simp [operands]))
    rw [detachOperands, hb]
  | addition l r =>
    have hl := detach_of_constant (h l (by simp [operands]))
    have hr := detach_of_constant (h r (by simp [operands]))
    rw [detachOperands, hl, hr, List.nil_append]
  | multiplication l r =>
    have hl := detach_of_constant (h l (by simp [operands]))
    have hr := detach_of_constant (h r (by simp [operands]))
    rw [detachOperands, hl, hr, List.nil_append]

/-- What the loop lets go has nothing but constants below its root. -/
theorem mem_releaseStack {stack : List Expr} {h : Expr} (hmem : h ∈ releaseStack stack) :
    h.Bare := by
  induction stack using releaseStack.induct with
  | case1 => simp [releaseStack] at hmem
  -- One turn lets go of what is left of the subtree that it has taken, and later turns of the
  -- others.
  | case2 e stack ih =>
    rw [releaseStack, List.mem_cons] at hmem
    rcases hmem with rfl | hmem
    · exact e.bare_detachOperands
    · exact ih hmem

/-- The husks of a tree are what its loop lets go, and what is left of its root. -/
theorem bare_of_mem_husks {e h : Expr} (hmem : h ∈ e.husks) : h.Bare := by
  rw [husks, List.mem_append, List.mem_singleton] at hmem
  rcases hmem with hmem | rfl
  · exact mem_releaseStack hmem
  · exact e.bare_detachOperands

/-! ## Drops within drops

To drop a tree is to run the loop on it and then to drop the operands that are left.  Within the
loop everything that is let go is dropped in turn. -/

/-- Whether at most so many drops are under way at a time when a tree is dropped, its own one
included. -/
def DropsWithin : Nat → Expr → Prop
  | 0, _ => False
  | n + 1, e => (∀ h ∈ releaseStack e.detachOperands.2, DropsWithin n h) ∧
      ∀ o ∈ e.detachOperands.1.operands, DropsWithin n o

/-- A constant is dropped without any other drop. -/
theorem dropsWithin_of_constant {e : Expr} (h : e.kind = .constant) : e.DropsWithin 1 := by
  have hbare : e.Bare := by simp [Bare, operands_eq_nil h]
  rw [DropsWithin, hbare.detachOperands_eq]
  simp [releaseStack, operands_eq_nil h]

/-- What is let go drops its constants, one at a time, and moves nothing out. -/
theorem Bare.dropsWithin {e : Expr} (h : e.Bare) : e.DropsWithin 2 := by
  rw [DropsWithin, h.detachOperands_eq]
  constructor
  · simp [releaseStack]
  · intro o ho
    exact dropsWithin_of_constant (h o ho)

/-- Room for more drops does no harm. -/
theorem DropsWithin.succ {n : Nat} {e : Expr} (h : e.DropsWithin n) : e.DropsWithin (n + 1) := by
  induction n generalizing e with
  | zero => cases h
  | succ n ih => exact ⟨fun d hd => ih (h.1 d hd), fun o ho => ih (h.2 o ho)⟩

/-- Drops are nested no deeper in a deep tree than in a flat one. -/
theorem dropsWithin (e : Expr) : e.DropsWithin 3 := by
  constructor
  · -- What the loop lets go is bare.
    intro h hmem
    exact (mem_releaseStack hmem).dropsWithin
  · -- The operands that are left in the root are constants.
    intro o ho
    exact (dropsWithin_of_constant (e.bare_detachOperands o ho)).succ

/-! ## Subtrees with their places -/

/-- The subtrees that are moved out of a subtree, each with its place, the one to be taken next in
front. -/
def detachedAt (place : Place) (e : Expr) : List (Place × Expr) :=
  ((e.operands.zipIdx.filter fun o => o.1.kind ≠ .constant).map fun o =>
    (place ++ [o.2], o.1)).reverse

/-- Without their places these are the subtrees that are moved onto the stack. -/
theorem map_snd_detachedAt (place : Place) (e : Expr) :
    (detachedAt place e).map Prod.snd = e.detachOperands.2 := by
  -- An operand is moved out as a whole unless it is a constant.
  have hdetach : ∀ o : Expr, o.detach.2 = [o].filter fun o => o.kind ≠ .constant := by
    intro o
    cases o <;> rfl
  -- Places aside, the entries are the operands that are no constants, the last one in front.
  have hfilter : (detachedAt place e).map Prod.snd =
      (e.operands.filter fun o => o.kind ≠ .constant).reverse := by
    rw [detachedAt, List.map_reverse, List.map_map]
    nth_rewrite 2 [← List.zipIdx_map_fst 0 e.operands]
    rw [List.filter_map]
    rfl
  rw [hfilter]
  cases e with
  | constant v => rfl
  | negate e => cases e <;> rfl
  | exponent b n => cases b <;> rfl
  | addition l r =>
    rw [detachOperands, hdetach, hdetach, operands, ← List.singleton_append, List.filter_append,
      List.reverse_append]
    cases l <;> cases r <;> rfl
  | multiplication l r => cases l <;> cases r <;> rfl

/-- A subtree that is moved out of a subtree of a tree is at its place there. -/
theorem at?_of_mem_detachedAt {e d : Expr} {place : Place} (hd : e.at? place = some d)
    {entry : Place × Expr} (hmem : entry ∈ detachedAt place d) :
    e.at? entry.1 = some entry.2 ∧ entry.2.kind ≠ .constant := by
  rw [detachedAt, List.mem_reverse, List.mem_map] at hmem
  obtain ⟨⟨o, i⟩, ho, rfl⟩ := hmem
  obtain ⟨ho, hkind⟩ := List.mem_filter.mp ho
  refine ⟨?_, by simpa using hkind⟩
  rw [at?_append hd, at?, List.mk_mem_zipIdx_iff_getElem?.mp ho]
  rfl

/-- The places of the nodes of a subtree that are still to be taken: its own one, and those below
it. -/
def pendingPlaces (entry : Place × Expr) : List Place :=
  entry.1 :: entry.2.innerPlaces.tail.map (entry.1 ++ ·)

/-- Seen from the tree, these are the places of all nodes of the subtree that are no constants. -/
theorem pendingPlaces_eq {e : Expr} (h : e.kind ≠ .constant) (place : Place) :
    pendingPlaces (place, e) = e.innerPlaces.map (place ++ ·) := by
  rw [innerPlaces_eq_cons h, List.map_cons, List.append_nil]
  rfl

/-- Operands that are constants stay where they are, as there is nothing below them. -/
theorem flatMap_pendingPlaces (place : Place) (operands : List (Expr × Nat)) :
    ((operands.filter fun o => o.1.kind ≠ .constant).map fun o => (place ++ [o.2], o.1)).flatMap
        pendingPlaces =
      (operands.flatMap fun o => o.1.innerPlaces.map (o.2 :: ·)).map (place ++ ·) := by
  induction operands with
  | nil => rfl
  | cons o operands ih =>
    rw [List.flatMap_cons, List.map_append, ← ih]
    -- Each operand is either left out together with nothing, or listed with all that is below it.
    by_cases hkind : o.1.kind = .constant
    · rw [List.filter_cons_of_neg (by simpa using hkind), innerPlaces_eq_nil hkind]
      rfl
    · rw [List.filter_cons_of_pos (by simpa using hkind), List.map_cons, List.flatMap_cons,
        pendingPlaces_eq hkind, List.map_map]
      simp [Function.comp_def]

/-- The nodes that are to be taken below a subtree are those of the subtrees that are moved out of
it. -/
theorem perm_detachedAt (place : Place) (e : Expr) :
    (pendingPlaces (place, e)).Perm (place :: (detachedAt place e).flatMap pendingPlaces) := by
  apply List.Perm.cons
  show (e.innerPlaces.tail.map (place ++ ·)).Perm _
  rw [tail_innerPlaces, ← flatMap_pendingPlaces]
  exact (List.reverse_perm _).symm.flatMap_right _

/-! ## Turns of the loop -/

/-- A tree that is being released: the places of the subtrees that have been moved onto the stack so
far, the stack, the places of those that have been taken off it again, and what has been let go. -/
structure Release where
  moved : List Place
  stack : List (Place × Expr)
  taken : List Place
  gone : List Expr

namespace Release

/-- One turn: a subtree is taken off the stack and taken apart, and what is left of it is let go. -/
inductive Next : Release → Release → Prop where
  | take (moved : List Place) (place : Place) (e : Expr) (stack : List (Place × Expr))
      (taken : List Place) (gone : List Expr) :
      Next ⟨moved, (place, e) :: stack, taken, gone⟩
        ⟨moved ++ (detachedAt place e).map Prod.fst, detachedAt place e ++ stack,
          taken ++ [place], gone ++ [e.detachOperands.1]⟩

/-- Before the first turn the subtrees of the root have been moved onto the stack. -/
def ofTree (e : Expr) : Release where
  moved := (detachedAt [] e).map Prod.fst
  stack := detachedAt [] e
  taken := []
  gone := []

/-- What holds of a tree that is being released at every turn. -/
structure Intact (e : Expr) (r : Release) : Prop where
  /-- What waits on the stack is what the tree had at that place, and no constant. -/
  waits : ∀ entry ∈ r.stack, e.at? entry.1 = some entry.2 ∧ entry.2.kind ≠ .constant
  /-- What has been moved onto the stack has been taken off it or waits there. -/
  moved : r.moved.Perm (r.taken ++ r.stack.map Prod.fst)
  /-- The nodes that have been taken and those of the subtrees that wait are those below the root
  that are no constants. -/
  nodes : (r.taken ++ r.stack.flatMap pendingPlaces).Perm e.innerPlaces.tail
  /-- What has been let go has nothing but constants below its root. -/
  bare : ∀ d ∈ r.gone, d.Bare
  /-- The loop goes on as `releaseStack` does. -/
  husks : r.gone ++ releaseStack (r.stack.map Prod.snd) = releaseStack e.detachOperands.2

theorem intact_ofTree (e : Expr) : Intact e (ofTree e) where
  waits entry hmem := at?_of_mem_detachedAt rfl hmem
  moved := List.Perm.refl _
  nodes := by
    have hperm := (perm_detachedAt [] e).cons_inv
    simp only [List.nil_append, List.map_id'] at hperm
    exact hperm.symm
  bare d hmem := nomatch hmem
  husks := by rw [ofTree, map_snd_detachedAt, List.nil_append]

theorem intact_of_next {e : Expr} (r r' : Release) (h : Next r r') (hr : Intact e r) :
    Intact e r' := by
  cases h with
  | take moved place d stack taken gone =>
    constructor
    case waits =>
      intro entry hmem
      -- What was moved out of the subtree is at its own place in the tree, and the others still
      -- wait.
      rcases List.mem_append.mp hmem with hmem | hmem
      · have hplace := (hr.waits (place, d) List.mem_cons_self).1
        exact at?_of_mem_detachedAt hplace hmem
      · exact hr.waits entry (List.mem_cons_of_mem _ hmem)
    case moved =>
      -- The place that was taken goes from the stack to those taken.
      have hmoved := hr.moved.append_right ((detachedAt place d).map Prod.fst)
      refine hmoved.trans ?_
      simp only [List.map_cons, List.map_append, List.append_assoc, List.singleton_append]
      apply List.Perm.append_left
      exact List.perm_append_comm.cons _
    case nodes =>
      -- The nodes of the subtree are its root, which is taken, and those of what is moved out of
      -- it.
      refine List.Perm.trans ?_ hr.nodes
      rw [List.flatMap_append, List.flatMap_cons, List.append_assoc]
      apply List.Perm.append_left
      exact (perm_detachedAt place d).symm.append_right _
    case bare =>
      intro h hmem
      rcases List.mem_append.mp hmem with hmem | hmem
      · exact hr.bare h hmem
      · rw [List.mem_singleton.mp hmem]
        exact d.bare_detachOperands
    case husks =>
      -- One turn is one unfolding of the recursion.
      rw [← hr.husks, List.map_append, map_snd_detachedAt, List.map_cons, releaseStack,
        List.append_assoc, List.singleton_append]

/-- How many nodes are still to be taken. -/
def left (r : Release) : Nat := (r.stack.flatMap pendingPlaces).length

/-- Every turn takes one node. -/
theorem left_of_next (r r' : Release) (h : Next r r') : r'.left + 1 = r.left := by
  cases h with
  | take moved place e stack taken gone =>
    have hlength := (perm_detachedAt place e).length_eq
    rw [List.length_cons] at hlength
    simp only [left, List.flatMap_append, List.flatMap_cons, List.length_append, hlength]
    omega

/-- No node is left just if nothing waits, since what waits is a node itself. -/
theorem left_eq_zero_iff {r : Release} : r.left = 0 ↔ r.stack = [] := by
  obtain ⟨moved, stack, taken, gone⟩ := r
  cases stack with
  | nil => simp [left]
  | cons entry stack => simp [left, pendingPlaces]

/-- As long as nodes are left there is a subtree to take. -/
theorem exists_next (r : Release) (h : r.left ≠ 0) : ∃ r', Next r r' := by
  obtain ⟨moved, stack, taken, gone⟩ := r
  cases stack with
  | nil => exact absurd rfl h
  | cons entry stack => exact ⟨_, .take moved entry.1 entry.2 stack taken gone⟩

/-- At the start all nodes below the root are left that are no constants. -/
theorem left_ofTree (e : Expr) : (ofTree e).left = e.innerNodes - 1 := by
  have hlength := (intact_ofTree e).nodes.length_eq
  rw [List.length_tail, length_innerPlaces] at hlength
  exact hlength

/-- What has been done with a tree when the loop has ended. -/
structure Complete (e : Expr) (r : Release) : Prop where
  /-- Nothing is moved onto the stack twice. -/
  nodup_moved : r.moved.Nodup
  /-- Exactly the nodes below the root that are no constants are moved onto the stack. -/
  mem_moved_iff : ∀ place, place ∈ r.moved ↔ place ≠ [] ∧ e.HasInner place
  /-- Nothing is taken off the stack twice. -/
  nodup_taken : r.taken.Nodup
  /-- Exactly the same nodes are taken off it. -/
  mem_taken_iff : ∀ place, place ∈ r.taken ↔ place ≠ [] ∧ e.HasInner place
  /-- What has been let go, with the root at the end, are the husks of the tree. -/
  husks : r.gone ++ [e.detachOperands.1] = e.husks

/-- What waits on the stack is among the nodes that are still to be taken. -/
theorem sublist_flatMap_pendingPlaces (stack : List (Place × Expr)) :
    (stack.map Prod.fst).Sublist (stack.flatMap pendingPlaces) := by
  induction stack with
  | nil => exact List.Sublist.slnil
  | cons entry stack ih =>
    rw [List.map_cons, List.flatMap_cons, pendingPlaces, List.cons_append]
    apply List.Sublist.cons_cons
    exact ih.trans (List.sublist_append_right _ _)

/-- Nothing is moved onto the stack twice, at any turn. -/
theorem Intact.nodup_moved {e : Expr} {r : Release} (h : Intact e r) : r.moved.Nodup := by
  -- The nodes of a tree are told apart by their places.
  have hnodes : (r.taken ++ r.stack.flatMap pendingPlaces).Nodup :=
    h.nodes.nodup_iff.mpr e.nodup_innerPlaces.tail
  rw [h.moved.nodup_iff]
  exact hnodes.sublist ((sublist_flatMap_pendingPlaces r.stack).append_left r.taken)

/-- Once nothing waits, everything has been moved and taken. -/
theorem Intact.complete {e : Expr} {r : Release} (h : Intact e r) (hdone : r.stack = []) :
    Complete e r := by
  have hmoved := h.moved
  have htaken := h.nodes
  have hhusks := h.husks
  -- With an empty stack the three accounts of the invariant speak of what was taken alone.
  rw [hdone] at hmoved htaken hhusks
  simp only [List.map_nil, List.flatMap_nil, List.append_nil] at hmoved htaken
  have hnodup : r.taken.Nodup := htaken.nodup_iff.mpr (e.nodup_innerPlaces.tail)
  have hmem : ∀ place, place ∈ r.taken ↔ place ≠ [] ∧ e.HasInner place := by
    intro place
    rw [htaken.mem_iff, mem_tail_innerPlaces_iff]
  constructor
  case nodup_moved => exact h.nodup_moved
  case mem_moved_iff =>
    intro place
    rw [hmoved.mem_iff, hmem]
  case nodup_taken => exact hnodup
  case mem_taken_iff => exact hmem
  case husks =>
    rw [Expr.husks, ← hhusks, List.map_nil, releaseStack, List.append_nil]

end Release

/-- **A tree is released node by node**, whatever its shape.  The loop ends after as many turns as
there are nodes below the root that are no constants, and not before.  By then each of these nodes
has been moved onto the stack once and taken off it once, and at every turn on the way none is lost
and none is there twice.  What is let go, the root at last, has nothing but constants below it, so
that dropping it finds nothing to move out; the drops of any tree are nested three deep at most. -/
theorem released_nodeByNode (e : Expr) :
    (∃ r, Turns Release.Next (e.innerNodes - 1) (.ofTree e) r ∧ r.stack = [] ∧
      r.Complete e) ∧
    (∀ n r, Turns Release.Next n (.ofTree e) r →
      r.Intact e ∧ r.moved.Nodup ∧ r.taken.length = n ∧
        (r.stack = [] ↔ n = e.innerNodes - 1)) ∧
    (∀ h ∈ e.husks, h.Bare ∧ h.detachOperands = (h, []) ∧ h.DropsWithin 2) ∧
    e.DropsWithin 3 := by
  have hintact : ∀ n r, Turns Release.Next n (.ofTree e) r → r.Intact e := by
    intro n r hturns
    exact hturns.keeps Release.intact_of_next (Release.intact_ofTree e)
  refine ⟨?ends, ?turn, ?husks, e.dropsWithin⟩
  case ends =>
    obtain ⟨r, hturns, hleft⟩ :=
      Turns.exists_of_load Release.left_of_next Release.exists_next (.ofTree e)
    rw [Release.left_ofTree] at hturns
    have hdone := Release.left_eq_zero_iff.mp hleft
    exact ⟨r, hturns, hdone, (hintact _ r hturns).complete hdone⟩
  case turn =>
    intro n r hturns
    have hleft := hturns.add_eq Release.left_of_next
    rw [Release.left_ofTree] at hleft
    refine ⟨hintact n r hturns, (hintact n r hturns).nodup_moved, ?_, ?_⟩
    · -- The nodes taken and the nodes left are those below the root.
      have hlength := (hintact n r hturns).nodes.length_eq
      rw [List.length_append, List.length_tail, length_innerPlaces] at hlength
      rw [Release.left] at hleft
      omega
    · -- Every turn takes one of the nodes that are left.
      rw [← Release.left_eq_zero_iff]
      omega
  case husks =>
    intro h hmem
    have hbare := bare_of_mem_husks hmem
    exact ⟨hbare, hbare.detachOperands_eq, hbare.dropsWithin⟩

end Expr
end Reckoner
