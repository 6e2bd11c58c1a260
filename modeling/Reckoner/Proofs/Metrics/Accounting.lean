import Reckoner.Expr.Fold
import Reckoner.Metrics.Registry

/-!
# Accounting for recorded calls

The counts of a measure are the numbers of the calls that have been completed on its labels, at
every point at which they can be read (`Script.accounting`).  What is done with measures is a
`Script`: it makes measures, copies them, reads their counts and records bodies, which are scripts
in turn, so that calls nest to any depth.  `Script.events` is the history of a run.  It notes the
registry wherever a script could read it, the counts that the script is handed where it does read
them, and each recorded call behind everything that its body has done.

Labels share what is kept for them if their keys are equal, so that it is first followed for a key
(`Script.faithful`).  If no other labels with the same key are recorded, it is that of the labels:
the counts are the numbers of calls by their ends, and the histogram is that of the times that the
calls took (`Script.durations_seen`).
-/

namespace Reckoner.Metrics

/-! ## Scripts -/

/-- Things to do with measures, one after the other, and what comes of them in the end. -/
inductive Script : Type → Type 1 where
  | done {α : Type} (a : α) : Script α
  | create {α : Type} (layer function : String) (next : Measure → Script α) : Script α
  | copy {α : Type} (m : Measure) (next : Measure → Script α) : Script α
  | read {α : Type} (m : Measure) (next : Tally → Script α) : Script α
  /-- Records a body, which takes some time and goes on with the registry that the script has come
  to. -/
  | record {α ε β : Type} [Failing ε] (m : Measure) (elapsed : Duration)
      (body : Script (Except ε β)) (next : Except ε β → Script α) : Script α

/-- How a recorded call ended; an error may be a failure or not. -/
inductive Ending where
  | ok
  | error (failure : Bool)
  deriving DecidableEq

/-- What can be noted of a run. -/
inductive Event where
  /-- The script could read the counts of a registry. -/
  | seen (registry : Registry)
  /-- The script has read a measure, and these are the counts that it goes on with. -/
  | handed (m : Measure) (counts : Tally)
  /-- A recorded call has been counted. -/
  | completed (labels : Labels) (ending : Ending) (elapsed : Duration)

namespace Ending

def ofOutcome {ε α : Type} [Failing ε] : Except ε α → Ending
  | .ok _ => .ok
  | .error x => .error (Failing.isFailure x)

def failed : Ending → Bool
  | .ok => false
  | .error failure => failure

theorem failed_ofOutcome {ε α : Type} [Failing ε] (outcome : Except ε α) :
    (ofOutcome outcome).failed = Metrics.failed outcome := by
  cases outcome <;> rfl

end Ending

namespace Script

def run : {α : Type} → Script α → Registry → α × Registry
  | _, .done a, r => (a, r)
  | _, .create layer function next, r =>
    let (m, r) := Measure.create layer function r
    (next m).run r
  | _, .copy m next, r => (next m).run r
  | _, .read m next, r => (next (m.tally r)).run r
  | _, @record _ _ _ _ m elapsed body next, r =>
    let (outcome, r) := m.record body.run r elapsed
    (next outcome).run r

/-- The history of a run from a registry. -/
def events : {α : Type} → Script α → Registry → List Event
  | _, .done _, r => [.seen r]
  | _, .create layer function next, r =>
    let (m, r') := Measure.create layer function r
    .seen r :: (next m).events r'
  | _, .copy m next, r => .seen r :: (next m).events r
  | _, .read m next, r =>
    let counts := m.tally r
    .seen r :: .handed m counts :: (next counts).events r
  | _, @record _ _ _ _ m elapsed body next, r =>
    let (outcome, r') := m.record body.run r elapsed
    .seen r ::
      (body.events r ++
        .completed m.labels (.ofOutcome outcome) elapsed :: (next outcome).events r')

end Script

/-! ## What is kept for a key -/

/-- What is kept for a key after an event. -/
def Event.count (key : UInt64) (s : Series) : Event → Series
  | .completed labels ending elapsed =>
    if labels.key = key then s.count ending.failed elapsed else s
  | _ => s

/-- What is kept for a key after a history. -/
def countAll (key : UInt64) (s : Series) (history : List Event) : Series :=
  history.foldl (Event.count key) s

/-- Whether what is kept for some labels, which was given before a history, follows it: whatever
registry was seen has what there is after the events so far, and whatever counts were handed on are
those. -/
def Faithful (labels : Labels) : Series → List Event → Prop
  | _, [] => True
  | s, .seen r :: rest => r.series labels = s ∧ Faithful labels s rest
  | s, .handed m counts :: rest =>
    (m.labels.key = labels.key → counts = s.tally) ∧ Faithful labels s rest
  | s, .completed other ending elapsed :: rest =>
    Faithful labels ((Event.completed other ending elapsed).count labels.key s) rest

theorem Registry.series_congr {a b : Labels} (h : a.key = b.key) (r : Registry) :
    r.series a = r.series b := by
  induction r with
  | nil => rfl
  | cons entry rest ih => rw [series, series, h, ih]

/-- Recording a call counts it on top of what its body has counted. -/
theorem Measure.series_record {ε α : Type} [Failing ε] (m : Measure)
    (body : Registry → Except ε α × Registry) (r : Registry) (elapsed : Duration)
    (labels : Labels) :
    (m.record body r elapsed).2.series labels =
      (Event.completed m.labels (.ofOutcome (body r).1) elapsed).count labels.key
        ((body r).2.series labels) := by
  rw [record, Registry.series_update, Event.count, Ending.failed_ofOutcome]
  -- Labels with the same key have been counted, and all others have been left alone.
  by_cases hkey : labels.key = m.labels.key
  · rw [if_pos hkey, if_pos hkey.symm, Registry.series_congr hkey]
  · rw [if_neg hkey, if_neg (Ne.symm hkey)]

theorem faithful_append (labels : Labels) (s : Series) (history rest : List Event) :
    Faithful labels s (history ++ rest) ↔
      Faithful labels s history ∧ Faithful labels (countAll labels.key s history) rest := by
  induction history generalizing s with
  | nil => simp [Faithful, countAll]
  | cons event history ih =>
    cases event with
    | seen r => rw [List.cons_append, Faithful, Faithful, ih, and_assoc]; rfl
    | handed m counts => rw [List.cons_append, Faithful, Faithful, ih, and_assoc]; rfl
    | completed other ending elapsed => rw [List.cons_append, Faithful, Faithful, ih]; rfl

/-- What a whole run does to what is kept for some labels is what its history says, at every
point. -/
theorem Script.faithful {α : Type} (script : Script α) (r : Registry) (labels : Labels) :
    Faithful labels (r.series labels) (script.events r) ∧
      (script.run r).2.series labels =
        countAll labels.key (r.series labels) (script.events r) := by
  -- A body starts from the registry that the script has come to, as does what follows it.
  induction script generalizing r with
  | done a => exact ⟨⟨rfl, trivial⟩, rfl⟩
  | create layer function next ih =>
    -- Making a measure counts nothing.
    have hnext := ih ⟨⟨layer, function⟩⟩ (r.register ⟨layer, function⟩)
    rw [Registry.series_register] at hnext
    exact ⟨⟨rfl, hnext.1⟩, hnext.2⟩
  | copy m next ih => exact ⟨⟨rfl, (ih m r).1⟩, (ih m r).2⟩
  | read m next ih =>
    have hcounts : m.labels.key = labels.key → m.tally r = (r.series labels).tally :=
      fun hkey => congrArg Series.tally (Registry.series_congr hkey r)
    exact ⟨⟨rfl, hcounts, (ih (m.tally r) r).1⟩, (ih (m.tally r) r).2⟩
  | record m elapsed body next ihBody ihNext =>
    -- The call is counted on top of the registry that its body has left.
    obtain ⟨hbody, hbodyEnd⟩ := ihBody r
    have hnext := ihNext (body.run r).1 (m.record body.run r elapsed).2
    rw [Measure.series_record, hbodyEnd] at hnext
    obtain ⟨hnext, hend⟩ := hnext
    constructor
    · refine ⟨rfl, ?_⟩
      rw [faithful_append]
      exact ⟨hbody, hnext⟩
    · refine hend.trans ?_
      simp only [countAll, events, List.foldl_cons, List.foldl_append]
      rfl

/-- What was seen is what the history before it says. -/
theorem Faithful.series_eq {labels : Labels} {s : Series} {before after : List Event} {r : Registry}
    (h : Faithful labels s (before ++ .seen r :: after)) :
    r.series labels = countAll labels.key s before := by
  rw [faithful_append] at h
  exact h.2.1

/-- The counts that were handed on are those that the history before says. -/
theorem Faithful.handed_eq {labels : Labels} {s : Series} {before after : List Event}
    {m : Measure} {counts : Tally} (h : Faithful labels s (before ++ .handed m counts :: after))
    (hlabels : m.labels = labels) : counts = (countAll labels.key s before).tally := by
  rw [faithful_append] at h
  exact h.2.1 (congrArg Labels.key hlabels)

/-- A script can read the counts to the last. -/
theorem Script.getLast?_events {α : Type} (script : Script α) (r : Registry) :
    (script.events r).getLast? = some (.seen (script.run r).2) := by
  induction script generalizing r with
  | done a => rfl
  | create layer function next ih =>
    rw [events, List.getLast?_cons, ih]
    rfl
  | copy m next ih =>
    rw [events, List.getLast?_cons, ih]
    rfl
  | read m next ih =>
    rw [events, List.getLast?_cons, List.getLast?_cons, ih]
    rfl
  | record m elapsed body next _ ihNext =>
    rw [events, List.getLast?_cons, List.getLast?_append, List.getLast?_cons, ihNext]
    rfl

/-! ## Calls on labels -/

/-- Whether an event completes a call on some labels that ended in some way. -/
def Event.completes (labels : Labels) (ends : Ending → Bool) : Event → Bool
  | .completed other ending _ => other = labels && ends ending
  | _ => false

/-- How long a call on some labels took that an event completes. -/
def Event.time? (labels : Labels) : Event → Option Duration
  | .completed other _ elapsed => if other = labels then some elapsed else none
  | _ => none

/-- How many calls on some labels were completed with a value, or with an error that is no
failure. -/
def successesIn (labels : Labels) (history : List Event) : Nat :=
  history.countP (Event.completes labels (!·.failed))

def failuresIn (labels : Labels) (history : List Event) : Nat :=
  history.countP (Event.completes labels (·.failed))

/-- How long the calls on some labels took, in the order in which they were completed. -/
def timesIn (labels : Labels) (history : List Event) : List Duration :=
  history.filterMap (Event.time? labels)

/-- Whether some labels are the only ones with their key that are recorded in a history, so that
they have what is kept for themselves. -/
def Separate (labels : Labels) (history : List Event) : Prop :=
  ∀ other ending elapsed, .completed other ending elapsed ∈ history →
    other.key = labels.key → other = labels

namespace Separate

variable {labels : Labels}

theorem left {before after : List Event} (h : Separate labels (before ++ after)) :
    Separate labels before := by
  intro other ending elapsed hmem
  exact h other ending elapsed (List.mem_append_left _ hmem)

theorem tail {event : Event} {history : List Event} (h : Separate labels (event :: history)) :
    Separate labels history := by
  intro other ending elapsed hmem
  exact h other ending elapsed (List.mem_cons_of_mem _ hmem)

/-- What the first event does to what is kept for the key. -/
theorem count_head {event : Event} {history : List Event} (h : Separate labels (event :: history))
    (s : Series) :
    (∃ ending elapsed, event = .completed labels ending elapsed ∧
      event.count labels.key s = s.count ending.failed elapsed) ∨
    ((∀ ends, event.completes labels ends = false) ∧ event.time? labels = none ∧
      event.count labels.key s = s) := by
  cases event with
  | seen r => exact .inr ⟨fun _ => rfl, rfl, rfl⟩
  | handed m counts => exact .inr ⟨fun _ => rfl, rfl, rfl⟩
  | completed other ending elapsed =>
    by_cases hother : other = labels
    · subst hother
      exact .inl ⟨ending, elapsed, rfl, if_pos rfl⟩
    · -- Other labels have another key, so that nothing happens to this one.
      have hkey : other.key ≠ labels.key :=
        fun hkey => hother (h other ending elapsed List.mem_cons_self hkey)
      exact .inr ⟨fun _ => by simp [Event.completes, hother], if_neg hother, if_neg hkey⟩

/-- Where labels do not share their key, its counts are those of the labels. -/
theorem tally_countAll {history : List Event} (h : Separate labels history) (s : Series) :
    (countAll labels.key s history).tally =
      ⟨s.tally.successes + successesIn labels history,
        s.tally.failures + failuresIn labels history,
        s.tally.calls + (successesIn labels history + failuresIn labels history)⟩ := by
  induction history generalizing s with
  | nil => rfl
  | cons event history ih =>
    rw [countAll, List.foldl_cons, ← countAll, ih h.tail]
    rcases h.count_head s with ⟨ending, elapsed, rfl, hcount⟩ | ⟨hnone, -, hcount⟩
    · -- Whichever way the call ended, one number and the sum of both move by one.
      rw [hcount]
      rcases hfailed : ending.failed with _ | _ <;>
        simp [Series.count, Tally.count, successesIn, failuresIn, Event.completes, hfailed] <;>
        omega
    · simp [hcount, successesIn, failuresIn, hnone]

/-- Likewise its histogram is that of the calls on the labels. -/
theorem durations_countAll {history : List Event} (h : Separate labels history) (s : Series) :
    (countAll labels.key s history).durations =
      (timesIn labels history).foldl Histogram.observe s.durations := by
  induction history generalizing s with
  | nil => rfl
  | cons event history ih =>
    rw [countAll, List.foldl_cons, ← countAll, ih h.tail]
    rcases h.count_head s with ⟨ending, elapsed, rfl, hcount⟩ | ⟨-, hnone, hcount⟩
    · have htime : (Event.completed labels ending elapsed).time? labels = some elapsed := if_pos rfl
      rw [hcount, timesIn, timesIn, List.filterMap_cons_some htime, List.foldl_cons]
      rfl
    · rw [hcount, timesIn, timesIn, List.filterMap_cons_none hnone]

end Separate

/-- Completed calls on other labels do not count. -/
theorem counts_append_of_notMem {labels : Labels} {between : List Event}
    (h : ∀ ending elapsed, .completed labels ending elapsed ∉ between) (before : List Event) :
    successesIn labels (before ++ between) = successesIn labels before ∧
      failuresIn labels (before ++ between) = failuresIn labels before := by
  -- None of the events between completes a call on the labels.
  have hnone : ∀ ends, between.countP (Event.completes labels ends) = 0 := by
    intro ends
    rw [List.countP_eq_zero]
    intro event hevent
    cases event with
    | seen r => exact Bool.false_ne_true
    | handed m counts => exact Bool.false_ne_true
    | completed other ending elapsed =>
      have hother : other ≠ labels := by
        rintro rfl
        exact h ending elapsed hevent
      simp [Event.completes, hother]
  simp [successesIn, failuresIn, List.countP_append, hnone]

namespace Script

variable {α : Type} {script : Script α} {labels : Labels} {before after : List Event}

/-- What was kept when a script could see it, after the events before. -/
theorem series_seen {r : Registry} (hsplit : script.events [] = before ++ .seen r :: after) :
    r.series labels = countAll labels.key {} before := by
  have hfaithful := (script.faithful [] labels).1
  rw [hsplit] at hfaithful
  exact hfaithful.series_eq

/-- What a script could see at any point are the numbers of the calls completed until then. -/
theorem tally_seen (hseparate : Separate labels (script.events [])) {r : Registry}
    (hsplit : script.events [] = before ++ .seen r :: after) {m : Measure}
    (hm : m.labels = labels) :
    m.tally r = ⟨successesIn labels before, failuresIn labels before,
      successesIn labels before + failuresIn labels before⟩ := by
  rw [hsplit] at hseparate
  rw [Measure.tally, hm, Registry.tally, series_seen hsplit, hseparate.left.tally_countAll]
  simp

/-- What a script was handed are the numbers of the calls completed until then. -/
theorem tally_handed (hseparate : Separate labels (script.events [])) {m : Measure}
    {counts : Tally} (hsplit : script.events [] = before ++ .handed m counts :: after)
    (hm : m.labels = labels) :
    counts = ⟨successesIn labels before, failuresIn labels before,
      successesIn labels before + failuresIn labels before⟩ := by
  have hfaithful := (script.faithful [] labels).1
  rw [hsplit] at hfaithful hseparate
  rw [hfaithful.handed_eq hm, hseparate.left.tally_countAll]
  simp [Registry.series]

/-- At any point the histogram is that of the calls completed until then: it says of every bound how
many of them took no longer, and how many seconds all of them took. -/
theorem durations_seen (hseparate : Separate labels (script.events [])) {r : Registry}
    (hsplit : script.events [] = before ++ .seen r :: after) :
    (r.series labels).durations.upTo = bounds.map (fun bound =>
        (timesIn labels before).countP (·.nanoseconds ≤ bound.nanoseconds)) ∧
      (r.series labels).durations.sum =
        (timesIn labels before).foldl (fun sum d => sum + d.seconds) 0 := by
  rw [hsplit] at hseparate
  rw [series_seen hsplit, hseparate.left.durations_countAll]
  constructor
  · rw [Histogram.upTo_foldl_observe, Histogram.upTo_empty, List.zipWith_map_right,
      List.zipWith_self]
    simp only [Nat.zero_add]
  · exact Histogram.sum_foldl_observe _ _

end Script

/-- **Counts are the numbers of completed calls**, in every run from an empty registry, however its
calls are nested and however long they take, and at every point at which it can read them, within a
recorded body as well.  This is what every measure on the labels says, and what a script is handed
that reads one.  The history notes completed calls by their labels, so that copies of a measure and
measures made again count together; it ends with the registry that the run leaves.  What is done on
other labels changes nothing, and a recorded body returns what it returns by itself. -/
theorem Script.accounting {α : Type} (script : Script α) (labels : Labels)
    (hseparate : Separate labels (script.events [])) :
    (∀ before r after, script.events [] = before ++ .seen r :: after →
      ∀ m : Measure, m.labels = labels →
        m.tally r = ⟨successesIn labels before, failuresIn labels before,
          successesIn labels before + failuresIn labels before⟩) ∧
    (∀ before m counts after, script.events [] = before ++ .handed m counts :: after →
      m.labels = labels →
        counts = ⟨successesIn labels before, failuresIn labels before,
          successesIn labels before + failuresIn labels before⟩) ∧
    (script.events []).getLast? = some (.seen (script.run []).2) ∧
    (∀ before r between r' after,
      script.events [] = before ++ .seen r :: (between ++ .seen r' :: after) →
      (∀ ending elapsed, .completed labels ending elapsed ∉ between) →
      ∀ m : Measure, m.labels = labels → m.tally r' = m.tally r) ∧
    (∀ layer function r, (Measure.create layer function r).1.labels = ⟨layer, function⟩) ∧
    ∀ {ε β : Type} [Failing ε] (m : Measure) (body : Registry → Except ε β × Registry)
      (r : Registry) (elapsed : Duration), (m.record body r elapsed).1 = (body r).1 := by
  refine ⟨?counts, ?handed, script.getLast?_events [], ?others, fun _ _ _ => rfl, ?outcome⟩
  case counts =>
    intro before r after hsplit m hm
    exact tally_seen hseparate hsplit hm
  case handed =>
    intro before m counts after hsplit hm
    exact tally_handed hseparate hsplit hm
  case others =>
    intro before r between r' after hsplit hbetween m hm
    -- Between the two points there is nothing that counts.
    have hsplit' : script.events [] = (before ++ .seen r :: between) ++ .seen r' :: after := by
      rw [hsplit, List.append_assoc, List.cons_append]
    have hnone : ∀ ending elapsed, .completed labels ending elapsed ∉ .seen r :: between := by
      intro ending elapsed hmem
      rcases List.mem_cons.mp hmem with hmem | hmem
      · cases hmem
      · exact hbetween ending elapsed hmem
    obtain ⟨hsuccesses, hfailures⟩ := counts_append_of_notMem hnone before
    rw [tally_seen hseparate hsplit hm, tally_seen hseparate hsplit' hm, hsuccesses, hfailures]
  case outcome =>
    intro ε β _ m body r elapsed
    rfl

/-- A call within which others are recorded: one on other labels that fails, and one on a copy of
the measure whose error is no failure.  What is read before the outer call ends is its outcome. -/
def nestedScript : Script Tally :=
  .create "outer" "run" fun m =>
  .create "inner" "run" fun n =>
  .record m ⟨3000000⟩
    (.record n ⟨1000000⟩ (.done (.error "lost" : Except String Unit)) fun _ =>
      .copy m fun m' =>
      .record m' ⟨1500000⟩ (.done (.error () : Except Unit Unit)) fun _ =>
      .read m fun t =>
      .done (.ok t : Except Empty Tally)) fun outcome =>
  .done (certain outcome)

/-- Where the measure is read, the call on the copy has been counted, but not the call within which
it was made. Any measure on these labels says so, and so do the counts that the script is
handed. -/
theorem nestedScript_accounting :
    Separate ⟨"outer", "run"⟩ (nestedScript.events []) ∧
      (∀ before r after, nestedScript.events [] = before ++ .seen r :: after →
        before.length = 10 → ∀ m : Measure, m.labels = ⟨"outer", "run"⟩ → m.tally r = ⟨1, 0, 1⟩) ∧
      ∃ before after, nestedScript.events [] =
        before ++ .handed ⟨⟨"outer", "run"⟩⟩ (nestedScript.run []).1 :: after ∧
          (nestedScript.run []).1 = ⟨1, 0, 1⟩ := by
  have hinner : (Labels.mk "inner" "run").key ≠ (Labels.mk "outer" "run").key := by decide
  have hseparate : Separate ⟨"outer", "run"⟩ (nestedScript.events []) := by
    intro other ending elapsed hmem hkey
    simp only [nestedScript, Script.events, Measure.create, List.mem_append, List.mem_cons,
      List.not_mem_nil, Event.completed.injEq, reduceCtorEq, false_or, or_false] at hmem
    rcases hmem with (⟨rfl, -⟩ | ⟨rfl, -⟩) | ⟨rfl, -⟩
    · exact absurd hkey hinner
    · rfl
    · rfl
  obtain ⟨hcounts, hhanded, -⟩ := nestedScript.accounting _ hseparate
  refine ⟨hseparate, ?seen, ?read⟩
  case seen =>
    intro before r after hsplit hlength m hm
    have hbefore : before = (nestedScript.events []).take 10 := by
      rw [hsplit, ← hlength, List.take_left]
    rw [hcounts before r after hsplit m hm, hbefore]
    decide
  case read =>
    -- The eleventh event is followed by what is handed on.
    have hsplit : nestedScript.events [] = (nestedScript.events []).take 11 ++
        .handed ⟨⟨"outer", "run"⟩⟩ (nestedScript.run []).1 :: (nestedScript.events []).drop 12 :=
      rfl
    refine ⟨_, _, hsplit, ?_⟩
    rw [hhanded _ _ _ _ hsplit rfl]
    decide

end Reckoner.Metrics
