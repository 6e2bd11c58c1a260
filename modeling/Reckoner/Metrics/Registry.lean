import Reckoner.Metrics.Histogram
import Reckoner.Text.Fingerprint

/-!
# Counting calls

A registry counts, for each pair of labels, how many recorded calls succeeded, how many failed,
and how many there were, and keeps how long they took.  A `Measure` is a pair of labels that has
been registered.  Labels are told apart by a key alone, the fingerprint of the two texts one after
the other, so that measures share what is kept if their keys are equal (`series_update`); what is
shown are the labels that were registered first.  `Measure.record` runs a body and counts it, and as
the body has the registry in hand it may itself record calls, on the same or on other measures.
-/

namespace Reckoner.Metrics

/-! ## Labels -/

/-- Where a call belongs: a layer and a function in it. -/
structure Labels where
  layer : String
  function : String
  deriving DecidableEq

/-- What labels are told apart by. -/
def Labels.key (l : Labels) : UInt64 := takeText (fingerprint l.layer) l.function

/-- Labels whose texts join to the same text have the same key. -/
theorem Labels.key_congr {a b : Labels} (h : a.layer ++ a.function = b.layer ++ b.function) :
    a.key = b.key := by
  simp only [Labels.key, fingerprint, ← takeText_append, h]

/-- Labels are ordered by layer, then by function, each by code points. -/
def Labels.before (a b : Labels) : Bool :=
  a.layer < b.layer || (a.layer == b.layer && a.function < b.function)

/-! ## Counts -/

/-- The counts of one pair of labels. -/
structure Tally where
  successes : Nat := 0
  failures : Nat := 0
  calls : Nat := 0
  deriving DecidableEq

def Tally.count (t : Tally) (failed : Bool) : Tally :=
  if failed then ⟨t.successes, t.failures + 1, t.calls + 1⟩
  else ⟨t.successes + 1, t.failures, t.calls + 1⟩

/-- What is kept for one pair of labels. -/
structure Series where
  tally : Tally := {}
  durations : Histogram := .empty
  deriving DecidableEq

/-- Counts a call by its end and by how long it took. -/
def Series.count (s : Series) (failed : Bool) (elapsed : Duration) : Series :=
  ⟨s.tally.count failed, s.durations.observe elapsed⟩

/-! ## Registries -/

/-- What is kept for all registered labels, in the order of the labels. -/
abbrev Registry := List (Labels × Series)

namespace Registry

/-- What is kept for some labels; nothing has been counted if they are not registered. -/
def series (labels : Labels) : Registry → Series
  | [] => {}
  | (l, s) :: rest => if l.key = labels.key then s else series labels rest

/-- The counts of some labels. -/
def tally (labels : Labels) (r : Registry) : Tally := (r.series labels).tally

def contains (labels : Labels) (r : Registry) : Bool := r.any (·.1.key == labels.key)

/-- Puts labels in their place, with nothing counted. -/
def insert (labels : Labels) : Registry → Registry
  | [] => [(labels, {})]
  | (l, s) :: rest =>
    if labels.before l then (labels, {}) :: (l, s) :: rest else (l, s) :: insert labels rest

/-- Registers labels, if they are not yet. -/
def register (labels : Labels) (r : Registry) : Registry :=
  if r.contains labels then r else r.insert labels

/-- Changes what is kept for registered labels. -/
def change (labels : Labels) (f : Series → Series) (r : Registry) : Registry :=
  r.map fun (l, s) => if l.key = labels.key then (l, f s) else (l, s)

/-- Changes what is kept for some labels, which are registered if they are not yet. -/
def update (labels : Labels) (f : Series → Series) (r : Registry) : Registry :=
  (r.register labels).change labels f

/-! ### What is counted -/

theorem contains_insert (labels : Labels) (r : Registry) :
    (r.insert labels).contains labels = true := by
  induction r with
  | nil => simp [insert, contains]
  | cons entry rest ih =>
    obtain ⟨l, t⟩ := entry
    simp only [contains, List.any_eq_true, beq_iff_eq] at ih
    unfold insert
    split
    · simp [contains]
    · simp only [contains, List.any_cons, Bool.or_eq_true, List.any_eq_true, beq_iff_eq]
      exact .inr ih

theorem contains_register (labels : Labels) (r : Registry) :
    (r.register labels).contains labels = true := by
  unfold register
  split
  · assumption
  · exact contains_insert labels r

theorem series_of_not_contains {labels other : Labels} {r : Registry}
    (h : r.contains labels = false) (hkey : labels.key = other.key) : r.series other = {} := by
  induction r with
  | nil => rfl
  | cons entry rest ih =>
    obtain ⟨l, s⟩ := entry
    simp only [contains, List.any_cons, Bool.or_eq_false_iff, beq_eq_false_iff_ne] at h
    rw [series, if_neg (hkey ▸ h.1), ih h.2]

/-- Labels that are inserted start from zero, and what is kept for other labels stays. -/
theorem series_insert {labels : Labels} {r : Registry} (h : r.contains labels = false)
    (other : Labels) : (r.insert labels).series other = r.series other := by
  induction r with
  | nil => simp [insert, series]
  | cons entry rest ih =>
    obtain ⟨l, s⟩ := entry
    unfold insert
    split
    · -- The labels go in front of all others; with the same key nothing had been counted yet.
      by_cases hk : labels.key = other.key
      · rw [series, if_pos hk, series_of_not_contains h hk]
      · rw [series, if_neg hk]
    · -- They go further back, and the first entry is the one that it was.
      simp only [contains, List.any_cons, Bool.or_eq_false_iff] at h
      rw [series, series, ih h.2]

theorem series_register (labels other : Labels) (r : Registry) :
    (r.register labels).series other = r.series other := by
  unfold register
  split
  next => rfl
  next h => exact series_insert (by simpa using h) other

/-- Labels with another key keep what they have. -/
theorem series_change_of_key_ne {labels other : Labels} (hne : other.key ≠ labels.key)
    (f : Series → Series) (r : Registry) : (r.change labels f).series other = r.series other := by
  induction r with
  | nil => rfl
  | cons entry rest ih =>
    obtain ⟨l, s⟩ := entry
    simp only [change] at ih
    by_cases hl : l.key = labels.key
    · -- The entry is changed, but it is not the one that is looked up.
      have hother : l.key ≠ other.key := fun heq => hne (heq.symm.trans hl)
      simp only [change, List.map_cons, series, if_pos hl, if_neg hother]
      exact ih
    · simp only [change, List.map_cons, series, if_neg hl]
      rw [ih]

theorem series_change_of_key_eq {labels other : Labels} {r : Registry}
    (h : r.contains labels = true) (heq : other.key = labels.key) (f : Series → Series) :
    (r.change labels f).series other = f (r.series labels) := by
  induction r with
  | nil => simp [contains] at h
  | cons entry rest ih =>
    obtain ⟨l, s⟩ := entry
    simp only [contains, List.any_cons, Bool.or_eq_true, beq_iff_eq] at h
    by_cases hl : l.key = labels.key
    · simp only [change, List.map_cons, series, if_pos hl, if_pos (hl.trans heq.symm)]
    · -- The first entry is passed over, so that the labels are in the rest.
      have hother : l.key ≠ other.key := fun hkey => hl (hkey.trans heq)
      have ih := ih (by simpa [contains, hl] using h)
      simp only [change] at ih
      simp only [change, List.map_cons, series, if_neg hl, if_neg hother]
      exact ih

/-- An update changes what is kept for the labels with the same key, and for no others. -/
theorem series_update (labels : Labels) (f : Series → Series) (r : Registry) (other : Labels) :
    (r.update labels f).series other =
      if other.key = labels.key then f (r.series labels) else r.series other := by
  unfold update
  by_cases hkey : other.key = labels.key
  · rw [if_pos hkey, series_change_of_key_eq (contains_register labels r) hkey, series_register]
  · rw [if_neg hkey, series_change_of_key_ne hkey, series_register]

theorem tally_register (labels other : Labels) (r : Registry) :
    (r.register labels).tally other = r.tally other :=
  congrArg Series.tally (series_register labels other r)

/-- A call that is counted moves the counts of the labels with the same key. -/
theorem tally_update_count (labels : Labels) (failed : Bool) (elapsed : Duration) (r : Registry)
    (other : Labels) : (r.update labels (·.count failed elapsed)).tally other =
      if other.key = labels.key then (r.tally labels).count failed else r.tally other := by
  rw [tally, series_update]
  split <;> rfl

end Registry

/-! ## Measures -/

/-- Errors that say whether they count as failures.  An error that the caller is expected to deal
with need not. -/
class Failing (ε : Type) where
  isFailure : ε → Bool

instance : Failing Empty := ⟨fun _ => false⟩
instance : Failing Unit := ⟨fun _ => false⟩

/-- An error of which nothing but its text is known is a failure. -/
instance : Failing String := ⟨fun _ => true⟩

/-- Whether an outcome counts as a failure. -/
def failed {ε α : Type} [Failing ε] : Except ε α → Bool
  | .ok _ => false
  | .error x => Failing.isFailure x

/-- The counts of registered labels. -/
structure Measure where
  labels : Labels
  deriving DecidableEq

namespace Measure

def create (layer function : String) (r : Registry) : Measure × Registry :=
  (⟨⟨layer, function⟩⟩, r.register ⟨layer, function⟩)

/-- Runs a body, then counts its outcome and how long it took. -/
def record {ε α : Type} [Failing ε] (m : Measure) (body : Registry → Except ε α × Registry)
    (r : Registry) (elapsed : Duration := {}) : Except ε α × Registry :=
  let (outcome, r) := body r
  (outcome, r.update m.labels (·.count (failed outcome) elapsed))

/-- The counts that a measure reports. -/
def tally (m : Measure) (r : Registry) : Tally := r.tally m.labels

end Measure

end Reckoner.Metrics
