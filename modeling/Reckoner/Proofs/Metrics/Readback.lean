import Mathlib.Data.List.Forall2
import Reckoner.Calculator.Report
import Reckoner.Proofs.Metrics.Registered
import Reckoner.Proofs.Metrics.Samples
import Reckoner.Proofs.Text.Lines

/-!
# Metrics are read back

The text of a registry is read line by line: a comment that names a family starts it, other comments
are skipped, and every other line is a sample of the family that was named last.  What is read from
the text of any registry are its three families with the samples of all its entries
(`readDump?_dump`), and from these the counts of every entry (`tallyIn?_readBack`).  With what a
registry lists after a history of measures, the text shows in each family the labels for which
measures were made, in order, and beside them what was kept for them, with the counts that their
measures report (`Script.dump_readable`).
-/

namespace Reckoner.Metrics

/-- What a registry keeps as one text. -/
def dump (r : Registry) : String := (Calculator.Report.mk "" (encode r)).text

/-! ## Reading families -/

/-- What stands in front of the name of a family in the comment that starts it. -/
def helpMark : List Char := " HELP ".toList

/-- Reads lines: the samples in front of the first family, and the families by name. -/
def readFamilies : List (List Char) → Option (List Reading × List (String × List Reading))
  | [] => some ([], [])
  | ('#' :: comment) :: lines => do
    let (readings, families) ← readFamilies lines
    match helpMark.isPrefixOf? comment with
    | some text => return ([], (String.ofList (text.takeWhile (· ≠ ' ')), readings) :: families)
    | none => return (readings, families)
  | line :: lines => do
    let reading ← Reading.ofLine? line
    let (readings, families) ← readFamilies lines
    return (reading :: readings, families)

/-- Reads a text of which every line ends, and in which every sample belongs to a family. -/
def readDump? (text : List Char) : Option (List (String × List Reading)) :=
  match splitLines text with
  | (lines, []) =>
    match readFamilies lines with
    | some ([], families) => some families
    | _ => none
  | _ => none

theorem readFamilies_sample {s : Sample} {g : Reading} (h : s.Says g) (lines : List (List Char)) :
    readFamilies (s.line.toList :: lines) =
      (readFamilies lines).map fun (readings, families) => (g :: readings, families) := by
  rw [readFamilies]
  · rw [h.ofLine?_line]
    cases readFamilies lines <;> rfl
  · exact h.line_ne_comment

/-- Lines of samples are read as what their samples say, in front of what follows. -/
theorem readFamilies_samples {samples : List Sample} {shown : List Reading}
    (h : List.Forall₂ Sample.Says samples shown) {lines : List (List Char)}
    {readings : List Reading} {families : List (String × List Reading)}
    (hlines : readFamilies lines = some (readings, families)) :
    readFamilies (samples.map (·.line.toList) ++ lines) = some (shown ++ readings, families) := by
  induction h with
  | nil => exact hlines
  | cons hsays _ ih =>
    rw [List.map_cons, List.cons_append, readFamilies_sample hsays, ih]
    rfl

/-! ## The families of a registry -/

/-- A family shows something for each entry, under a name and with comments that do not get in the
way. -/
structure Family.Shows (f : Family) (shown : Labels × Series → List Reading) : Prop where
  samples : ∀ l s, List.Forall₂ Sample.Says (f.samples l s) (shown (l, s))
  name : ' ' ∉ f.name.toList
  comments : '\n' ∉ f.name.toList ∧ '\n' ∉ f.help.toList ∧ '\n' ∉ f.type.toList

namespace Family.Shows

variable {f : Family} {shown : Labels × Series → List Reading}

/-- The samples of all entries, one after the other. -/
theorem forall₂_flatMap (h : f.Shows shown) (r : Registry) :
    List.Forall₂ Sample.Says (r.flatMap fun entry => f.samples entry.1 entry.2)
      (r.flatMap shown) := by
  induction r with
  | nil => exact List.Forall₂.nil
  | cons entry r ih => exact List.rel_append (h.samples entry.1 entry.2) ih

theorem toList_lines (f : Family) (r : Registry) :
    (f.lines (fun _ => true) r).map String.toList =
      ('#' :: (helpMark ++ (f.name.toList ++ ' ' :: f.help.toList))) ::
        ('#' :: (" TYPE ".toList ++ (f.name.toList ++ ' ' :: f.type.toList))) ::
          (r.flatMap fun entry => f.samples entry.1 entry.2).map (·.line.toList) := by
  have hlines : f.lines (fun _ => true) r =
      ("# HELP " ++ f.name ++ " " ++ f.help) :: ("# TYPE " ++ f.name ++ " " ++ f.type) ::
        (r.flatMap fun entry => f.samples entry.1 entry.2).map Sample.line := by
    rw [lines, List.map_flatMap]
    simp only [List.filter_eq_self.mpr fun _ _ => rfl]
  have hhelp : "# HELP ".toList = '#' :: helpMark := rfl
  have htype : "# TYPE ".toList = '#' :: " TYPE ".toList := rfl
  have hblank : " ".toList = [' '] := rfl
  simp only [hlines, List.map_cons, List.map_map, String.toList_append, hhelp, htype, hblank,
    List.append_assoc, List.cons_append, List.nil_append]
  rfl

/-- A family is read with what it shows for all entries. -/
theorem readFamilies_lines (h : f.Shows shown) (r : Registry) {lines : List (List Char)}
    {families : List (String × List Reading)} (hlines : readFamilies lines = some ([], families)) :
    readFamilies ((f.lines (fun _ => true) r).map String.toList ++ lines) =
      some ([], (f.name, r.flatMap shown) :: families) := by
  have hsamples := readFamilies_samples (h.forall₂_flatMap r) hlines
  rw [List.append_nil] at hsamples
  -- The comment with the type does not start another family.
  have htype : helpMark.isPrefixOf?
      (" TYPE ".toList ++ (f.name.toList ++ ' ' :: f.type.toList)) = none := rfl
  -- The name of the family ends at the first space.
  have hname : (f.name.toList ++ ' ' :: f.help.toList).takeWhile (· ≠ ' ') = f.name.toList := by
    rw [List.takeWhile_append_of_pos, List.takeWhile_cons_of_neg (by decide), List.append_nil]
    intro c hc
    rw [decide_eq_true_iff]
    rintro rfl
    exact h.name hc
  simp only [toList_lines, List.cons_append, readFamilies, hsamples, htype, isPrefixOf?_append,
    hname, Option.bind_eq_bind, Option.bind_some, Option.pure_def, String.ofList_toList]

theorem lineEnd_notMem_lines (h : f.Shows shown) (r : Registry) :
    ∀ line ∈ (f.lines (fun _ => true) r).map String.toList, '\n' ∉ line := by
  obtain ⟨hname, hhelp, htype⟩ := h.comments
  have hhelpMark : '\n' ∉ helpMark := by decide
  rw [toList_lines]
  refine List.forall_mem_cons.mpr ⟨?_, List.forall_mem_cons.mpr ⟨?_, ?_⟩⟩
  · simp [hhelpMark, hname, hhelp]
  · simp [hname, htype]
  · -- A sample that says something stands on one line.
    intro line hline
    obtain ⟨s, hs, rfl⟩ := List.mem_map.mp hline
    obtain ⟨i, hi, rfl⟩ := List.getElem_of_mem hs
    have hsays := (List.forall₂_iff_get.mp (h.forall₂_flatMap r)).2 i hi
      ((h.forall₂_flatMap r).length_eq ▸ hi)
    exact hsays.lineEnd_notMem_line

end Family.Shows

/-! ### What each family shows -/

def failureReadings : Labels × Series → List Reading
  | (l, s) => [⟨"failure_counter", l, none, .ofCount s.tally.failures⟩]

def successReadings : Labels × Series → List Reading
  | (l, s) => [⟨"success_counter", l, none, .ofCount s.tally.successes⟩]

def bucketReading (l : Labels) (bound : Duration) (n : Nat) : Reading :=
  ⟨"timer_bucket", l, some (positional bound.seconds), .ofCount n⟩

def timerReadings : Labels × Series → List Reading
  | (l, s) =>
    List.zipWith (bucketReading l) bounds s.durations.upTo ++
      [⟨"timer_bucket", l, some "+Inf", .ofCount s.tally.calls⟩,
        ⟨"timer_sum", l, none, .ofFloat s.durations.sum⟩,
        ⟨"timer_count", l, none, .ofCount s.tally.calls⟩]

/-- A sample with a count. -/
theorem says_count {series : String} (hplain : Plain series) (l : Labels) {bound : Option String}
    (hbound : ∀ text ∈ bound, ∀ c ∈ text.toList, labelInk c = [c]) (n : Nat) (timed : Bool) :
    Sample.Says ⟨series, l, bound, decimal n, timed⟩ ⟨series, l, bound, .ofCount n⟩ where
  series := rfl
  labels := rfl
  bound := rfl
  value := by
    have htext : (decimal n).toList = digits n := String.toList_ofList
    rw [htext, Quantity.read?_digits]
  plain := hplain
  unescaped := hbound

/-- A sample with a double. -/
theorem says_positional {series : String} (hplain : Plain series) (l : Labels) (x : Float)
    (timed : Bool) :
    Sample.Says ⟨series, l, none, positional x, timed⟩ ⟨series, l, none, .ofFloat x⟩ where
  series := rfl
  labels := rfl
  bound := rfl
  value := Quantity.read?_positional x
  plain := hplain
  unescaped := by simp

theorem says_buckets (l : Labels) {bounds : List Duration}
    (hbounds : ∀ b ∈ bounds, ∀ c ∈ (positional b.seconds).toList, labelInk c = [c])
    (ns : List Nat) :
    List.Forall₂ Sample.Says (List.zipWith (Family.bucket l) bounds ns)
      (List.zipWith (bucketReading l) bounds ns) := by
  induction bounds generalizing ns with
  | nil => exact List.Forall₂.nil
  | cons bound bounds ih =>
    cases ns with
    | nil => exact List.Forall₂.nil
    | cons n ns =>
      obtain ⟨hbound, hbounds⟩ := List.forall_mem_cons.mp hbounds
      refine List.Forall₂.cons (says_count (by simp [Plain]) l ?_ n true) (ih hbounds ns)
      -- The bound is the one that has been written.
      intro text htext
      rw [← Option.some.inj htext]
      exact hbound

/-- Bounds are written without characters that would have to be escaped. -/
theorem labelInk_of_mem_bounds : ∀ b ∈ bounds, ∀ c ∈ (positional b.seconds).toList,
    labelInk c = [c] := by
  have htexts : ∀ text ∈ bounds.map (positional ·.seconds), ∀ c ∈ text.toList,
      labelInk c = [c] := by
    rw [bounds_text]
    simp [labelInk]
  intro b hb
  exact htexts _ (List.mem_map_of_mem hb)

theorem shows_failures : Family.failures.Shows failureReadings where
  samples l s :=
    .cons (says_count (by simp [Plain]) l (by simp) s.tally.failures false) .nil
  name := by decide
  comments := by decide

theorem shows_successes : Family.successes.Shows successReadings where
  samples l s :=
    .cons (says_count (by simp [Plain]) l (by simp) s.tally.successes false) .nil
  name := by decide
  comments := by decide

theorem shows_timer : Family.timer.Shows timerReadings where
  samples l s := by
    apply List.rel_append (says_buckets l labelInk_of_mem_bounds s.durations.upTo)
    refine .cons ?_ (.cons ?_ (.cons ?_ .nil))
    · exact says_count (by simp [Plain]) l (by simp [labelInk]) s.tally.calls false
    · -- Between the two numbers of calls stands the sum of their times.
      exact says_positional (by simp [Plain]) l s.durations.sum true
    · exact says_count (by simp [Plain]) l (by simp) s.tally.calls false
  name := by decide
  comments := by decide

/-! ## Texts of registries -/

/-- The families that are read where these entries are shown. -/
def readBack (r : Registry) : List (String × List Reading) :=
  if r = [] then []
  else
    [("failure_counter", r.flatMap failureReadings),
      ("success_counter", r.flatMap successReadings), ("timer", r.flatMap timerReadings)]

theorem toList_dump (r : Registry) :
    (dump r).toList = ((encode r).map String.toList).flatMap (· ++ ['\n']) := by
  -- Lines are written behind what has been written before.
  have hfold : ∀ (lines : List String) (out : String),
      (lines.foldl (fun out line => out ++ line ++ "\n") out).toList =
        out.toList ++ (lines.map String.toList).flatMap (· ++ ['\n']) := by
    intro lines
    induction lines with
    | nil => simp
    | cons line lines ih =>
      intro out
      rw [List.foldl_cons, ih]
      simp
  exact hfold (encode r) ""

/-- The text of a registry is read as what the registry has. -/
theorem readDump?_dump (r : Registry) : readDump? (dump r).toList = some (readBack r) := by
  by_cases hr : r = []
  · rw [hr]
    rfl
  · have hlines : (encode r).map String.toList =
        (Family.failures.lines (fun _ => true) r).map String.toList ++
          ((Family.successes.lines (fun _ => true) r).map String.toList ++
            ((Family.timer.lines (fun _ => true) r).map String.toList ++ [])) := by
      rw [encode, linesOf, if_neg (by rwa [List.isEmpty_iff])]
      simp [families]
    have hends : ∀ line ∈ (encode r).map String.toList, '\n' ∉ line := by
      simp only [hlines, List.mem_append, List.not_mem_nil, or_false]
      rintro line (hline | hline | hline)
      · exact shows_failures.lineEnd_notMem_lines r line hline
      · exact shows_successes.lineEnd_notMem_lines r line hline
      · exact shows_timer.lineEnd_notMem_lines r line hline
    -- Lines are read from the last family to the first.
    have hread : readFamilies ((encode r).map String.toList) = some ([], readBack r) := by
      rw [hlines, readBack, if_neg hr]
      apply shows_failures.readFamilies_lines
      apply shows_successes.readFamilies_lines
      apply shows_timer.readFamilies_lines
      rfl
    simp only [readDump?, toList_dump, splitLines_join hends, hread]

/-! ## Counts -/

/-- The count that a family shows for some labels in one of its series. -/
def countIn? (families : List (String × List Reading)) (family series : String) (l : Labels) :
    Option Nat := do
  let readings ← families.lookup family
  let reading ← readings.find? fun g => g.series = series ∧ g.labels = l
  reading.value.count?

/-- The counts that are shown for some labels. -/
def tallyIn? (families : List (String × List Reading)) (l : Labels) : Option Tally := do
  let successes ← countIn? families "success_counter" "success_counter" l
  let failures ← countIn? families "failure_counter" "failure_counter" l
  let calls ← countIn? families "timer" "timer_count" l
  return ⟨successes, failures, calls⟩

theorem of_mem_buckets {l : Labels} {bounds : List Duration} {ns : List Nat} {g : Reading}
    (h : g ∈ List.zipWith (bucketReading l) bounds ns) :
    g.series = "timer_bucket" ∧ g.labels = l := by
  obtain ⟨i, hi, rfl⟩ := List.getElem_of_mem h
  rw [List.getElem_zipWith]
  exact ⟨rfl, rfl⟩

theorem labels_of_mem_timerReadings {entry : Labels × Series} {g : Reading}
    (h : g ∈ timerReadings entry) : g.labels = entry.1 := by
  rcases List.mem_append.mp h with h | h
  · exact (of_mem_buckets h).2
  · simp only [List.mem_cons, List.not_mem_nil, or_false] at h
    rcases h with rfl | rfl | rfl <;> rfl

/-- Of the samples of an entry the last one has the number of calls. -/
theorem find?_timerReadings (l : Labels) (s : Series) :
    (timerReadings (l, s)).find? (fun g => g.series = "timer_count" ∧ g.labels = l) =
      some ⟨"timer_count", l, none, .ofCount s.tally.calls⟩ := by
  -- Buckets belong to another series.
  have hbuckets : (List.zipWith (bucketReading l) bounds s.durations.upTo).find?
      (fun g => g.series = "timer_count" ∧ g.labels = l) = none := by
    rw [List.find?_eq_none]
    intro g hg
    simp [(of_mem_buckets hg).1]
  rw [timerReadings, List.find?_append, hbuckets, Option.none_or]
  simp

/-- A value that a family shows once for each entry is found for labels among the entries. -/
theorem countIn?_of_lookup {families : List (String × List Reading)} {family series : String}
    (shown : Labels × Series → List Reading) (value : Series → Nat) {f : Labels → Series}
    {pairs : List Labels}
    (hfamily : families.lookup family = some ((pairs.map fun m => (m, f m)).flatMap shown))
    (hlabels : ∀ entry, ∀ g ∈ shown entry, g.labels = entry.1)
    (hown : ∀ l s, (shown (l, s)).find? (fun g => g.series = series ∧ g.labels = l) =
      some ⟨series, l, none, .ofCount (value s)⟩)
    {l : Labels} (hl : l ∈ pairs) : countIn? families family series l = some (value (f l)) := by
  have hfound : ((pairs.map fun m => (m, f m)).flatMap shown).find?
      (fun g => g.series = series ∧ g.labels = l) =
        some ⟨series, l, none, .ofCount (value (f l))⟩ := by
    clear hfamily
    induction pairs with
    | nil => cases hl
    | cons m pairs ih =>
      rw [List.map_cons, List.flatMap_cons, List.find?_append]
      by_cases hm : m = l
      · rw [hm, hown, Option.some_or]
      · -- Nothing of an entry of other labels is taken for the one that is looked up.
        have hnone : (shown (m, f m)).find? (fun g => g.series = series ∧ g.labels = l) =
            none := by
          rw [List.find?_eq_none]
          intro g hg
          rw [decide_eq_true_iff, hlabels _ g hg]
          exact fun h => hm h.2
        rw [hnone, Option.none_or]
        exact ih ((List.mem_cons.mp hl).resolve_left (Ne.symm hm))
  rw [countIn?, hfamily, Option.bind_eq_bind, Option.bind_some, hfound]
  exact Quantity.count?_ofCount (value (f l))

/-- From what is read of some entries their counts are recovered. -/
theorem tallyIn?_readBack (f : Labels → Series) {pairs : List Labels} {l : Labels}
    (hl : l ∈ pairs) : tallyIn? (readBack (pairs.map fun m => (m, f m))) l = some (f l).tally := by
  -- There is at least one entry, so that the families are shown.
  have hne : (pairs.map fun m => (m, f m)) ≠ [] := by
    intro hnil
    rw [List.map_eq_nil_iff.mp hnil] at hl
    cases hl
  have hsuccesses : countIn? (readBack (pairs.map fun m => (m, f m))) "success_counter"
      "success_counter" l = some (f l).tally.successes := by
    apply countIn?_of_lookup successReadings (·.tally.successes) _ _ _ hl
    · rw [readBack, if_neg hne]
      rfl
    · simp [successReadings]
    · simp [successReadings]
  have hfailures : countIn? (readBack (pairs.map fun m => (m, f m))) "failure_counter"
      "failure_counter" l = some (f l).tally.failures := by
    apply countIn?_of_lookup failureReadings (·.tally.failures) _ _ _ hl
    · rw [readBack, if_neg hne]
      rfl
    · simp [failureReadings]
    · simp [failureReadings]
  have hcalls : countIn? (readBack (pairs.map fun m => (m, f m))) "timer" "timer_count" l =
      some (f l).tally.calls := by
    apply countIn?_of_lookup timerReadings (·.tally.calls) _ _ _ hl
    · rw [readBack, if_neg hne]
      rfl
    · exact fun _ _ => labels_of_mem_timerReadings
    · exact find?_timerReadings
  rw [tallyIn?, hsuccesses, hfailures, hcalls]
  rfl

/-! ## Histories -/

/-- **Metrics can be read back**, at every point of every run from an empty registry, the last one
included, whatever texts the labels are and however long the calls took.  The three families are
read from the text, each with the labels for which measures have been made until then, in order, and
with what has been kept for them; the counts that are recovered for some labels are those that their
measures report.  Lines of different labels start differently.  Calls are recorded on measures that
have been made, and no two labels share their key. -/
theorem Script.dump_readable {α : Type} (script : Script α)
    (hfirst : Throughout MadeFirst [] (script.deeds []))
    (hkeys : ∀ l m, .made l ∈ script.deeds [] → .made m ∈ script.deeds [] → l.key = m.key → l = m) :
    (∀ before r after, script.deeds [] = before ++ .exposed r :: after →
      ∃ (pairs : List Labels) (shown : List (String × List Reading)),
        pairs.Pairwise Labels.Precedes ∧ (∀ l, l ∈ pairs ↔ .made l ∈ before) ∧
        readDump? (dump r).toList = some shown ∧
        shown = readBack (pairs.map fun l => (l, r.series l)) ∧
        ∀ l ∈ pairs, ∀ m : Measure, m.labels = l → tallyIn? shown l = some (m.tally r)) ∧
    (script.deeds []).getLast? = some (.exposed (script.run []).2) ∧
    ∀ (s : Sample) (l : Labels), linePrefix s.series l <+: s.line.toList ↔ l = s.labels := by
  refine ⟨?_, script.getLast?_deeds [], linePrefix_isPrefix_iff⟩
  intro before r after hsplit
  have hlists := lists_of_exposed hfirst hsplit
  have hmade : ∀ l, l ∈ makings [] before ↔ .made l ∈ before := by
    intro l
    rw [mem_makings_iff]
    simp only [List.not_mem_nil, false_or]
  -- What has been made before this point is among what the whole run makes.
  have hseparate : ∀ l ∈ makings [] before, ∀ m ∈ makings [] before, l.key = m.key → l = m := by
    intro l hl m hm
    apply hkeys
    · rw [hsplit]
      exact List.mem_append_left _ ((hmade l).mp hl)
    · rw [hsplit]
      exact List.mem_append_left _ ((hmade m).mp hm)
  refine ⟨r.labels, readBack (r.labels.map fun l => (l, r.series l)), hlists.ascending, ?pairs,
    ?read, rfl, ?counts⟩
  case pairs =>
    intro l
    rw [hlists.mem_iff hseparate, hmade]
  case read => rw [← hlists.eq_map_labels, readDump?_dump]
  case counts =>
    rintro l hl m rfl
    exact tallyIn?_readBack r.series hl

/-- Labels with quotes, a backslash and a line end, and within a call on them another call, on
labels without any characters. -/
def oddScript : Script Unit :=
  .create "say \"hi\"" "a\\b\nc" fun m =>
  .record m ⟨1200000000⟩
    (.create "" "" fun n =>
      .record n ⟨40000000⟩ (.done (.error "lost" : Except String Unit)) fun _ =>
      .done (.ok () : Except Empty Unit)) fun _ =>
  .done ()

theorem oddScript_dump_readable :
    (Throughout MadeFirst [] (oddScript.deeds []) ∧
      ∀ l m, .made l ∈ oddScript.deeds [] → .made m ∈ oddScript.deeds [] → l.key = m.key → l = m) ∧
    ∃ (pairs : List Labels) (shown : List (String × List Reading)),
      pairs.Pairwise Labels.Precedes ∧
      (∀ l, l ∈ pairs ↔ l = ⟨"say \"hi\"", "a\\b\nc"⟩ ∨ l = ⟨"", ""⟩) ∧
      readDump? (dump (oddScript.run []).2).toList = some shown ∧
      tallyIn? shown ⟨"say \"hi\"", "a\\b\nc"⟩ = some ⟨1, 0, 1⟩ ∧
      tallyIn? shown ⟨"", ""⟩ = some ⟨0, 1, 1⟩ := by
  have hodd : (Labels.mk "say \"hi\"" "a\\b\nc").key ≠ (Labels.mk "" "").key := by decide
  have hmade : ∀ l, .made l ∈ oddScript.deeds [] ↔
      l = ⟨"say \"hi\"", "a\\b\nc"⟩ ∨ l = ⟨"", ""⟩ := by
    intro l
    simp only [oddScript, Script.deeds, Measure.create, List.mem_append, List.mem_cons,
      List.not_mem_nil, Deed.made.injEq, reduceCtorEq, false_or, or_false]
  have hfirst : Throughout MadeFirst [] (oddScript.deeds []) := by
    simp [oddScript, Script.deeds, Measure.create, Throughout, MadeFirst, Deed.making]
  have hkeys : ∀ l m, .made l ∈ oddScript.deeds [] → .made m ∈ oddScript.deeds [] →
      l.key = m.key → l = m := by
    intro l m hl hm hkey
    rcases (hmade l).mp hl with rfl | rfl <;> rcases (hmade m).mp hm with rfl | rfl
    · rfl
    · exact absurd hkey hodd
    · exact absurd hkey.symm hodd
    · rfl
  refine ⟨⟨hfirst, hkeys⟩, ?_⟩
  obtain ⟨hread, hlast, -⟩ := oddScript.dump_readable hfirst hkeys
  obtain ⟨before, hsplit⟩ := List.getLast?_eq_some_iff.mp hlast
  obtain ⟨pairs, shown, hascending, hpairs, hshown, -, hcounts⟩ := hread before _ [] hsplit
  have hmem : ∀ l, l ∈ pairs ↔ l = ⟨"say \"hi\"", "a\\b\nc"⟩ ∨ l = ⟨"", ""⟩ := by
    intro l
    rw [hpairs, ← hmade, hsplit]
    simp only [List.mem_append, List.mem_cons, List.not_mem_nil, or_false, reduceCtorEq]
  refine ⟨pairs, shown, hascending, hmem, hshown, ?_, ?_⟩
  · rw [hcounts _ ((hmem _).mpr (Or.inl rfl)) ⟨_⟩ rfl]
    decide
  · rw [hcounts _ ((hmem _).mpr (Or.inr rfl)) ⟨_⟩ rfl]
    decide

end Reckoner.Metrics
