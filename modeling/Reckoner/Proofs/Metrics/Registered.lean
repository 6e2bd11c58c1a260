import Reckoner.Proofs.Metrics.Accounting

/-!
# Which labels are registered

A registry has the labels for which measures have been made, in order, and no two of them with the
same key (`Lists`).  Every way of using measures keeps this: making a measure puts its labels in
their place unless labels with their key are there, and a recorded call changes nothing but counts,
because the measure that it is recorded on was made before.

`Script.deeds` is the history of a run as far as labels go, and `Script.lists` follows it to every
point at which the counts could be exposed, within a recorded body as well.  Where labels do not
share their key, the labels that are listed are exactly those that were made (`Lists.mem_iff`), and
beside them stands what is kept for them (`Lists.eq_map_labels`).
-/

namespace Reckoner.Metrics

/-! ## The order of labels -/

/-- Labels are ordered by layer, and within a layer by function. -/
def Labels.Precedes (a b : Labels) : Prop :=
  a.layer < b.layer ∨ a.layer = b.layer ∧ a.function < b.function

namespace Labels

/-- The order is computed by comparing the texts. -/
theorem before_eq_true_iff {a b : Labels} : a.before b = true ↔ a.Precedes b := by
  rw [before, Precedes, Bool.or_eq_true, Bool.and_eq_true, decide_eq_true_iff, decide_eq_true_iff,
    beq_iff_eq]

/-- Labels that follow each other stay in order. -/
theorem Precedes.trans {a b c : Labels} (hab : a.Precedes b) (hbc : b.Precedes c) :
    a.Precedes c := by
  rcases hab with hab | ⟨hlayer, hab⟩
  · -- A step from layer to layer decides, whatever the functions are.
    left
    rcases hbc with hbc | ⟨hlayer', -⟩
    · exact String.lt_trans hab hbc
    · exact hlayer' ▸ hab
  · rcases hbc with hbc | ⟨hlayer', hbc⟩
    · left
      exact hlayer ▸ hbc
    · right
      exact ⟨hlayer.trans hlayer', String.lt_trans hab hbc⟩

/-- Different labels stand in one order or the other. -/
theorem precedes_of_not_precedes {a b : Labels} (hne : a ≠ b) (h : ¬a.Precedes b) :
    b.Precedes a := by
  rw [Precedes, not_or] at h
  -- The functions matter only where the layers are the same.
  rcases Std.lt_trichotomy a.layer b.layer with hlayer | hlayer | hlayer
  · exact absurd hlayer h.1
  · rcases Std.lt_trichotomy a.function b.function with hfunction | hfunction | hfunction
    · exact absurd ⟨hlayer, hfunction⟩ h.2
    · obtain ⟨layer, function⟩ := a
      obtain ⟨layer', function'⟩ := b
      cases hlayer
      cases hfunction
      exact absurd rfl hne
    · exact Or.inr ⟨hlayer.symm, hfunction⟩
  · exact Or.inl hlayer

end Labels

/-! ## The labels of a registry -/

namespace Registry

/-- The labels that are shown, in order. -/
def labels (r : Registry) : List Labels := r.map (·.1)

/-- Labels are taken for registered if labels with their key are. -/
theorem contains_eq_true_iff {l : Labels} {r : Registry} :
    r.contains l = true ↔ ∃ l' ∈ r.labels, l'.key = l.key := by
  simp [contains, labels]

/-- Changing what is kept leaves the labels as they are. -/
theorem labels_change (l : Labels) (f : Series → Series) (r : Registry) :
    (r.change l f).labels = r.labels := by
  rw [labels, change, List.map_map]
  apply List.map_congr_left
  intro entry _
  show (if entry.1.key = l.key then (entry.1, f entry.2) else entry).1 = entry.1
  split <;> rfl

/-- Inserting adds the labels and nothing else. -/
theorem perm_labels_insert (l : Labels) (r : Registry) :
    (r.insert l).labels.Perm (l :: r.labels) := by
  induction r with
  | nil => exact List.Perm.refl _
  | cons entry rest ih =>
    obtain ⟨l', t⟩ := entry
    unfold insert
    split
    · exact List.Perm.refl _
    · exact (ih.cons l').trans (List.Perm.swap l l' (labels rest))

/-- Labels are put where they belong. -/
theorem pairwise_labels_insert {l : Labels} {r : Registry} (hr : r.labels.Pairwise Labels.Precedes)
    (hnew : ∀ l' ∈ r.labels, l' ≠ l) : (r.insert l).labels.Pairwise Labels.Precedes := by
  induction r with
  | nil => exact List.pairwise_singleton _ _
  | cons entry rest ih =>
    obtain ⟨l', t⟩ := entry
    obtain ⟨hfirst, hrest⟩ := List.pairwise_cons.mp hr
    obtain ⟨hne, hnew⟩ := List.forall_mem_cons.mp hnew
    unfold insert
    split
    next hbefore =>
      -- What is in front of the first entry is in front of all.
      have hprecedes := Labels.before_eq_true_iff.mp hbefore
      refine List.pairwise_cons.mpr ⟨?_, hr⟩
      intro m hm
      rcases List.mem_cons.mp hm with rfl | hm
      · exact hprecedes
      · exact hprecedes.trans (hfirst m hm)
    next hbefore =>
      -- The labels go behind the first entry, which therefore precedes them.
      have hprecedes : l'.Precedes l := by
        apply Labels.precedes_of_not_precedes hne.symm
        rw [← Labels.before_eq_true_iff]
        exact hbefore
      refine List.pairwise_cons.mpr ⟨?_, ih hrest hnew⟩
      intro m hm
      rcases List.mem_cons.mp ((perm_labels_insert l rest).mem_iff.mp hm) with rfl | hm
      · exact hprecedes
      · exact hfirst m hm

/-- Where no two entries have the same key, an entry has what is kept for its labels. -/
theorem series_of_mem {r : Registry} (hkeys : r.labels.Pairwise (·.key ≠ ·.key)) {l : Labels}
    {s : Series} (hmem : (l, s) ∈ r) : r.series l = s := by
  induction r with
  | nil => cases hmem
  | cons entry rest ih =>
    obtain ⟨l', s'⟩ := entry
    obtain ⟨hfirst, hrest⟩ := List.pairwise_cons.mp hkeys
    rcases List.mem_cons.mp hmem with heq | hmem
    · cases heq
      rw [series, if_pos rfl]
    · -- The entry stands behind one with another key.
      have hne : l'.key ≠ l.key := hfirst l (List.mem_map_of_mem hmem)
      rw [series, if_neg hne]
      exact ih hrest hmem

end Registry

/-! ## Registries of measures -/

/-- A registry whose labels are those for which measures have been made, as far as these do not
share their key. -/
structure Lists (made : List Labels) (r : Registry) : Prop where
  ascending : r.labels.Pairwise Labels.Precedes
  /-- Labels with the same key are registered once. -/
  separate : r.labels.Pairwise (·.key ≠ ·.key)
  sound : ∀ l ∈ r.labels, l ∈ made
  complete : ∀ l ∈ made, r.contains l = true

namespace Lists

/-- At first nothing is registered. -/
theorem nil : Lists [] [] where
  ascending := List.Pairwise.nil
  separate := List.Pairwise.nil
  sound _ hmem := nomatch hmem
  complete _ hmem := nomatch hmem

variable {made : List Labels} {r : Registry}

/-- Making a measure registers its labels. -/
theorem register (h : Lists made r) (l : Labels) : Lists (l :: made) (r.register l) := by
  by_cases hcontains : r.contains l = true
  · -- With their key already there, nothing changes.
    rw [Registry.register, if_pos hcontains]
    refine ⟨h.ascending, h.separate, ?_, ?_⟩
    · intro m hm
      exact List.mem_cons_of_mem _ (h.sound m hm)
    · intro m hm
      rcases List.mem_cons.mp hm with rfl | hm
      · exact hcontains
      · exact h.complete m hm
  · rw [Registry.register, if_neg hcontains]
    have hperm := Registry.perm_labels_insert l r
    -- No other labels have their key, so that the new entry stays apart from all others.
    have hkeys : ∀ m ∈ r.labels, m.key ≠ l.key := by
      intro m hm hkey
      exact hcontains (Registry.contains_eq_true_iff.mpr ⟨m, hm, hkey⟩)
    constructor
    case ascending =>
      apply Registry.pairwise_labels_insert h.ascending
      rintro m hm rfl
      exact hkeys m hm rfl
    case separate =>
      rw [hperm.pairwise_iff fun hne => Ne.symm hne, List.pairwise_cons]
      exact ⟨fun m hm => (hkeys m hm).symm, h.separate⟩
    case sound =>
      intro m hm
      rcases List.mem_cons.mp (hperm.mem_iff.mp hm) with rfl | hm
      · exact List.mem_cons_self
      · exact List.mem_cons_of_mem _ (h.sound m hm)
    case complete =>
      intro m hm
      rcases List.mem_cons.mp hm with rfl | hm
      · exact Registry.contains_insert m r
      · obtain ⟨m', hm', hkey⟩ := Registry.contains_eq_true_iff.mp (h.complete m hm)
        refine Registry.contains_eq_true_iff.mpr ⟨m', ?_, hkey⟩
        exact hperm.mem_iff.mpr (List.mem_cons_of_mem _ hm')

/-- A call that is recorded on a measure that has been made changes counts only. -/
theorem update (h : Lists made r) {l : Labels} (hl : l ∈ made) (f : Series → Series) :
    Lists made (r.update l f) := by
  have hlabels : (r.update l f).labels = r.labels := by
    rw [Registry.update, Registry.labels_change, Registry.register, if_pos (h.complete l hl)]
  refine ⟨hlabels ▸ h.ascending, hlabels ▸ h.separate, hlabels ▸ h.sound, ?_⟩
  intro m hm
  rw [Registry.contains_eq_true_iff, hlabels, ← Registry.contains_eq_true_iff]
  exact h.complete m hm

/-- Exactly the labels that were made are listed, if they do not share their key. -/
theorem mem_iff (h : Lists made r) (hkeys : ∀ l ∈ made, ∀ m ∈ made, l.key = m.key → l = m)
    (l : Labels) : l ∈ r.labels ↔ l ∈ made := by
  constructor
  · exact h.sound l
  · intro hl
    -- Labels with the key are listed, and among those made these are the only ones.
    obtain ⟨m, hm, hkey⟩ := Registry.contains_eq_true_iff.mp (h.complete l hl)
    rw [← hkeys m (h.sound m hm) l hl hkey]
    exact hm

/-- A registry is its labels with what is kept for them. -/
theorem eq_map_labels (h : Lists made r) : r = r.labels.map fun l => (l, r.series l) := by
  -- Each entry has what is found for its labels.
  have hentries : r.map id = r.map fun entry => (entry.1, r.series entry.1) := by
    apply List.map_congr_left
    intro entry hentry
    exact Prod.ext rfl (Registry.series_of_mem h.separate hentry).symm
  rw [List.map_id] at hentries
  rw [Registry.labels, List.map_map]
  exact hentries

end Lists

/-! ## Histories -/

/-- What a run does as far as labels go. -/
inductive Deed where
  /-- A measure is made. -/
  | made (labels : Labels)
  /-- A call on a measure begins to be recorded. -/
  | used (labels : Labels)
  /-- The counts of a registry could be exposed. -/
  | exposed (registry : Registry)

namespace Script

/-- The deeds of a run from a registry, in order. -/
def deeds : {α : Type} → Script α → Registry → List Deed
  | _, .done _, r => [.exposed r]
  | _, .create layer function next, r =>
    let (m, r') := Measure.create layer function r
    .exposed r :: .made ⟨layer, function⟩ :: (next m).deeds r'
  | _, .copy m next, r => .exposed r :: (next m).deeds r
  | _, .read m next, r => .exposed r :: (next (m.tally r)).deeds r
  | _, @record _ _ _ _ m elapsed body next, r =>
    let (outcome, r') := m.record body.run r elapsed
    .exposed r :: .used m.labels :: (body.deeds r ++ (next outcome).deeds r')

end Script

/-- The labels for which measures have been made after a deed. -/
def Deed.making (made : List Labels) : Deed → List Labels
  | .made l => l :: made
  | _ => made

def makings (made : List Labels) (history : List Deed) : List Labels :=
  history.foldl Deed.making made

/-- Measures have been made before a history or in it. -/
theorem mem_makings_iff {l : Labels} {made : List Labels} {history : List Deed} :
    l ∈ makings made history ↔ l ∈ made ∨ .made l ∈ history := by
  induction history generalizing made with
  | nil => simp [makings]
  | cons deed history ih =>
    rw [makings, List.foldl_cons, ← makings, ih, List.mem_cons]
    cases deed with
    | made m => rw [Deed.making, List.mem_cons, Deed.made.injEq, or_assoc, or_left_comm]
    | used m => simp only [Deed.making, reduceCtorEq, false_or]
    | exposed r => simp only [Deed.making, reduceCtorEq, false_or]

/-- Whether every deed of a history has a property that depends on the measures made before it. -/
def Throughout (P : List Labels → Deed → Prop) : List Labels → List Deed → Prop
  | _, [] => True
  | made, deed :: history => P made deed ∧ Throughout P (deed.making made) history

/-- A property that holds throughout two histories holds throughout both in a row, where the second
one starts with what was made in the first. -/
theorem throughout_append {P : List Labels → Deed → Prop} {made : List Labels}
    {history history' : List Deed} :
    Throughout P made (history ++ history') ↔
      Throughout P made history ∧ Throughout P (makings made history) history' := by
  induction history generalizing made with
  | nil => simp [Throughout, makings]
  | cons deed history ih =>
    rw [List.cons_append, Throughout, Throughout, ih, and_assoc]
    rfl

/-- Calls are recorded on measures that have been made. -/
def MadeFirst (made : List Labels) : Deed → Prop
  | .used l => l ∈ made
  | _ => True

/-- What is exposed lists the measures that have been made. -/
def Listing (made : List Labels) : Deed → Prop
  | .exposed r => Lists made r
  | _ => True

/-- Throughout a run the registry lists the measures that have been made. -/
theorem Script.lists {α : Type} (script : Script α) {r : Registry} {made : List Labels}
    (hr : Lists made r) (hfirst : Throughout MadeFirst made (script.deeds r)) :
    Throughout Listing made (script.deeds r) ∧
      Lists (makings made (script.deeds r)) (script.run r).2 := by
  -- A body makes measures too, and what follows it starts with all of them.
  induction script generalizing r made with
  | done a => exact ⟨⟨hr, trivial⟩, hr⟩
  -- Here the registry and the measures grow together.
  | create layer function next ih =>
    obtain ⟨hlisting, hend⟩ := ih _ (hr.register ⟨layer, function⟩) hfirst.2.2
    exact ⟨⟨hr, trivial, hlisting⟩, hend⟩
  | copy m next ih =>
    obtain ⟨hlisting, hend⟩ := ih m hr hfirst.2
    exact ⟨⟨hr, hlisting⟩, hend⟩
  | read m next ih =>
    obtain ⟨hlisting, hend⟩ := ih _ hr hfirst.2
    exact ⟨⟨hr, hlisting⟩, hend⟩
  | record m elapsed body next ihBody ihNext =>
    obtain ⟨-, hused, hfirst⟩ := hfirst
    obtain ⟨hfirstBody, hfirstNext⟩ := throughout_append.mp hfirst
    obtain ⟨hbody, hbodyEnd⟩ := ihBody hr hfirstBody
    -- The measure was made before its body began, so that counting it registers nothing.
    have hmade : m.labels ∈ makings made (body.deeds r) := mem_makings_iff.mpr (Or.inl hused)
    obtain ⟨hnext, hend⟩ := ihNext _ (hbodyEnd.update hmade _) hfirstNext
    refine ⟨⟨hr, trivial, throughout_append.mpr ⟨hbody, hnext⟩⟩, ?_⟩
    rw [deeds, makings, List.foldl_cons, List.foldl_cons, List.foldl_append]
    exact hend

/-- The counts can be exposed to the last. -/
theorem Script.getLast?_deeds {α : Type} (script : Script α) (r : Registry) :
    (script.deeds r).getLast? = some (.exposed (script.run r).2) := by
  induction script generalizing r with
  | done a => rfl
  | create layer function next ih =>
    rw [deeds, List.getLast?_cons, List.getLast?_cons, ih]
    rfl
  | copy m next ih =>
    rw [deeds, List.getLast?_cons, ih]
    rfl
  | read m next ih =>
    rw [deeds, List.getLast?_cons, ih]
    rfl
  | record m elapsed body next _ ihNext =>
    rw [deeds, List.getLast?_cons, List.getLast?_cons, List.getLast?_append, ihNext]
    rfl

/-- What is exposed at some point lists the measures that have been made before it. -/
theorem Script.lists_of_exposed {α : Type} {script : Script α}
    (hfirst : Throughout MadeFirst [] (script.deeds [])) {before after : List Deed} {r : Registry}
    (hsplit : script.deeds [] = before ++ .exposed r :: after) : Lists (makings [] before) r := by
  have hlisting := (script.lists Lists.nil hfirst).1
  rw [hsplit, throughout_append] at hlisting
  exact hlisting.2.1

end Reckoner.Metrics
