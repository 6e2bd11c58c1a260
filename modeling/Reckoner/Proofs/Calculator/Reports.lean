import Reckoner.Calculator.Report
import Reckoner.Proofs.Evaluation.Agreement
import Reckoner.Proofs.Metrics.Exposed

/-!
# Runs of reports

What a report says depends on its expression, on what happens on overflow and on whether the
document is asked for, and on nothing that happened before; what it counts depends on nothing but
that it was made (`serveAll_accounted`).  An overflow ends a report between its two recorded calls
and what is printed, and it is no failure, so that every report moves the counts of rendering and
of evaluating by one success each, whether it returns or not.

Others may use the registry between reports, as long as they leave these two counts alone.  How long
calls take is up to the clock, and shows in nothing but the metrics.
-/

namespace Reckoner

namespace Metrics

/-! ## Counts -/

/-- Counts that are not zero stand in an entry with the key of their labels. -/
theorem Registry.exists_mem_of_tally_ne {labels : Labels} {r : Registry} (h : r.tally labels ≠ {}) :
    ∃ shown s, (shown, s) ∈ r ∧ s.tally = r.tally labels ∧ shown.key = labels.key := by
  induction r with
  | nil => exact absurd rfl h
  | cons entry rest ih =>
    obtain ⟨l, s⟩ := entry
    by_cases hkey : l.key = labels.key
    · refine ⟨l, s, List.mem_cons_self, ?_, hkey⟩
      rw [tally, series, if_pos hkey]
    · -- The first entry is for other labels, so that the counts are those of the rest.
      rw [tally, series, if_neg hkey, ← tally] at h ⊢
      obtain ⟨shown, s', hmem, hshown⟩ := ih h
      exact ⟨shown, s', List.mem_cons_of_mem _ hmem, hshown⟩

/-- Counts after some more calls, all of which succeeded. -/
def Tally.afterSuccesses (t : Tally) (n : Nat) : Tally :=
  ⟨t.successes + n, t.failures, t.calls + n⟩

theorem Tally.count_afterSuccesses (t : Tally) (n : Nat) :
    (t.afterSuccesses n).count false = t.afterSuccesses (n + 1) := rfl

theorem Tally.afterSuccesses_count (t : Tally) (n : Nat) :
    (t.count false).afterSuccesses n = t.afterSuccesses (n + 1) := by
  simp [count, afterSuccesses, Nat.add_assoc, Nat.add_comm 1 n]

end Metrics

namespace Evaluator

/-! ## Evaluators that fail -/

/-- Whatever value an evaluator returns, it is the wrapped one. -/
theorem eq_evaluate_of_outcome {evaluator : Evaluator} {e : Expr} {v : Int32}
    (h : (evaluator.evaluate e).outcome = .ok v) : v = e.evaluate := by
  obtain ⟨strategy, overflow⟩ := evaluator
  rw [outcome_evaluate] at h
  -- A checked evaluator that returns a value has not overflowed.
  cases overflow with
  | wrapping =>
    rw [outcome_wrapping] at h
    exact (Except.ok.inj h).symm
  | checked =>
    rw [outcome_checked] at h
    exact (Expr.evaluate_of_checkedEvaluate h).symm

/-- Only checked evaluators fail, in the way in which checked evaluation does. -/
theorem outcome_eq_error_iff {evaluator : Evaluator} {e : Expr} {x : EvalError} :
    (evaluator.evaluate e).outcome = .error x ↔
      evaluator.overflow = .checked ∧ e.checkedEvaluate = .error x := by
  obtain ⟨strategy, overflow⟩ := evaluator
  rw [outcome_evaluate]
  cases overflow with
  | wrapping =>
    rw [outcome_wrapping]
    constructor
    · intro h
      cases h
    · rintro ⟨h, -⟩
      cases h
  | checked =>
    rw [outcome_checked]
    exact ⟨fun h => ⟨rfl, h⟩, fun h => h.2⟩

end Evaluator

namespace Calculator

open Metrics Settings

/-! ## One report -/

/-- The labels of the two calls that a report records. -/
def recorded : List Labels := [⟨layer, "render"⟩, ⟨layer, "evaluate"⟩]

/-- The two calls do not share their counts. -/
theorem key_render_ne_key_evaluate :
    (Labels.mk layer "render").key ≠ (Labels.mk layer "evaluate").key := by decide

/-- An overflow is no failure, so that both calls are successes in any case. -/
theorem registry_report (config : Config) (e : Expr) (r : Registry) (timing : Timing) :
    (report config e r timing).registry =
      Registry.update ⟨layer, "evaluate"⟩ (·.count false timing.evaluating)
        (Registry.register ⟨layer, "evaluate"⟩
          (Registry.update ⟨layer, "render"⟩ (·.count false timing.rendering)
            (Registry.register ⟨layer, "render"⟩ r))) := by
  unfold report
  simp only [Measure.create, Measure.record]
  cases (config.evaluation.evaluate e).outcome <;> rfl

theorem outcome_report (config : Config) (e : Expr) (r : Registry) (timing : Timing) :
    (report config e r timing).outcome =
      match (config.evaluation.evaluate e).outcome with
      | .error x => .error (.evaluation x)
      | .ok v => .ok ⟨reportBody config.output e e.render v,
          if config.output.metrics then encode (report config e r timing).registry else []⟩ := by
  unfold report
  simp only [Measure.create, Measure.record]
  cases (config.evaluation.evaluate e).outcome <;> rfl

/-- A report counts one success for each of its calls. -/
theorem tally_report (config : Config) (e : Expr) (r : Registry) (timing : Timing)
    {labels : Labels} (hlabels : labels ∈ recorded) :
    (report config e r timing).registry.tally labels = (r.tally labels).count false := by
  rw [registry_report, Registry.tally_update_count, Registry.tally_register,
    Registry.tally_register, Registry.tally_update_count, Registry.tally_update_count,
    Registry.tally_register, Registry.tally_register]
  simp only [recorded, List.mem_cons, List.not_mem_nil, or_false] at hlabels
  -- Each of the two calls is counted once, as their keys differ.
  rcases hlabels with rfl | rfl
  · rw [if_neg key_render_ne_key_evaluate, if_pos rfl]
  · rw [if_pos rfl, if_neg key_render_ne_key_evaluate.symm]

/-- The text of a report is its body and then the lines of its metrics. -/
theorem Report.text_eq (body : String) (lines : List String) :
    (Report.mk body lines).text = body ++ (Report.mk "" lines).text := by
  -- What has been written before is not read again.
  have hrest : ∀ start : String, lines.foldl (fun out line => out ++ line ++ "\n") start =
      start ++ lines.foldl (fun out line => out ++ line ++ "\n") "" := by
    induction lines with
    | nil =>
      intro start
      exact (String.append_empty).symm
    | cons line lines ih =>
      intro start
      rw [List.foldl_cons, List.foldl_cons, ih, ih ("" ++ line ++ "\n"), String.empty_append,
        String.append_assoc, String.append_assoc, String.append_assoc]
  exact hrest body

/-! ## Runs -/

/-- A report that is asked for, and how long its calls will take.  Before it is made, others may
change the registry, but not the counts of the calls that reports record. -/
structure Request where
  config : Config
  expr : Expr
  timing : Timing := {}
  meanwhile : Registry → Registry
  untouched : ∀ labels ∈ recorded, ∀ r, (meanwhile r).tally labels = r.tally labels

namespace Request

def serve (q : Request) (r : Registry) : Reported :=
  report q.config q.expr (q.meanwhile r) q.timing

theorem tally_serve (q : Request) (r : Registry) {labels : Labels} (hlabels : labels ∈ recorded) :
    (q.serve r).registry.tally labels = (r.tally labels).count false := by
  rw [serve, tally_report _ _ _ _ hlabels, q.untouched labels hlabels]

end Request

/-- What is left of each of some requests, which are served in order, and the last registry. -/
def serveAll : List Request → Registry → List Reported × Registry
  | [], r => ([], r)
  | q :: requests, r =>
    let first := q.serve r
    let (rest, r) := serveAll requests first.registry
    (first :: rest, r)

theorem length_serveAll (requests : List Request) (start : Registry) :
    (serveAll requests start).1.length = requests.length := by
  induction requests generalizing start with
  | nil => rfl
  | cons q requests ih => exact congrArg (· + 1) (ih (q.serve start).registry)

/-- Every request is counted by the time the run ends. -/
theorem tally_serveAll (requests : List Request) (start : Registry) {labels : Labels}
    (hlabels : labels ∈ recorded) :
    (serveAll requests start).2.tally labels =
      (start.tally labels).afterSuccesses requests.length := by
  induction requests generalizing start with
  | nil => rfl
  | cons q requests ih =>
    refine (ih (q.serve start).registry).trans ?_
    rw [q.tally_serve start hlabels, Tally.afterSuccesses_count, List.length_cons]

/-- Each request is served from a registry in which exactly the requests before it are counted. -/
theorem exists_serve {requests : List Request} {start : Registry} {i : Nat} {q : Request}
    {d : Reported} (hq : requests[i]? = some q) (hd : (serveAll requests start).1[i]? = some d) :
    ∃ r, d = q.serve r ∧
      ∀ labels ∈ recorded, r.tally labels = (start.tally labels).afterSuccesses i := by
  induction requests generalizing start i with
  | nil => cases hq
  | cons first requests ih =>
    -- The first request is served at the start, and the others behind it.
    cases i with
    | zero =>
      cases hq
      cases hd
      exact ⟨start, rfl, fun _ _ => rfl⟩
    | succ i =>
      obtain ⟨r, hserve, hr⟩ := ih hq hd
      refine ⟨r, hserve, ?_⟩
      intro labels hlabels
      rw [hr labels hlabels, first.tally_serve start hlabels, Tally.afterSuccesses_count]

/-! ## What a request gets -/

/-- What is left of a request after which the calls that reports record have succeeded some times
more than at the start. -/
structure Accounted (q : Request) (start : Registry) (n : Nat) (d : Reported) : Prop where
  /-- It fails exactly if overflow is checked and happens. -/
  fails : ∀ x, d.outcome = .error x ↔ q.config.evaluation.overflow = .checked ∧
    ∃ k, q.expr.checkedEvaluate = .error (.overflow k) ∧ x = .evaluation (.overflow k)
  /-- Otherwise the text before the metrics depends on the expression and the choice of the
  document alone. -/
  returns : ∀ p, d.outcome = .ok p →
    (q.config.evaluation.evaluate q.expr).outcome = .ok q.expr.evaluate ∧
    p.text = q.expr.render ++ " = " ++ decimal32 q.expr.evaluate ++ "\n" ++
      (if q.config.output.json then q.expr.json ++ "\n" else "") ++
      (if q.config.output.metrics then (Report.mk "" (encode d.registry)).text else "")
  counts : ∀ labels ∈ recorded, d.registry.tally labels = (start.tally labels).afterSuccesses n
  /-- The metrics have lines with these counts.  They show the labels themselves, unless others with
  the same key were registered first. -/
  shows : ∀ labels ∈ recorded, ∃ shown : Labels, shown.key = labels.key ∧
    ((∀ entry ∈ d.registry, entry.1.key = labels.key → entry.1 = labels) → shown = labels) ∧
    ∀ line ∈ tallyLines shown ((start.tally labels).afterSuccesses n), line ∈ encode d.registry

/-- The calls of a request come on top of those counted before. -/
theorem accounted_serve (q : Request) {start r : Registry} {n : Nat}
    (hr : ∀ labels ∈ recorded, r.tally labels = (start.tally labels).afterSuccesses n) :
    Accounted q start (n + 1) (q.serve r) := by
  have hcounts : ∀ labels ∈ recorded,
      (q.serve r).registry.tally labels = (start.tally labels).afterSuccesses (n + 1) := by
    intro labels hlabels
    rw [q.tally_serve r hlabels, hr labels hlabels, Tally.count_afterSuccesses]
  have houtcome := outcome_report q.config q.expr (q.meanwhile r) q.timing
  rw [← Request.serve] at houtcome
  constructor
  case fails =>
    intro x
    rw [houtcome]
    cases hvalue : (q.config.evaluation.evaluate q.expr).outcome with
    | ok v =>
      constructor
      · intro h
        cases h
      · -- Whenever checked evaluation fails, so would the evaluator.
        rintro ⟨hoverflow, k, hk, -⟩
        rw [Evaluator.outcome_eq_error_iff.mpr ⟨hoverflow, hk⟩] at hvalue
        cases hvalue
    | error y =>
      obtain ⟨k⟩ := y
      obtain ⟨hoverflow, hchecked⟩ := Evaluator.outcome_eq_error_iff.mp hvalue
      constructor
      · intro h
        exact ⟨hoverflow, k, hchecked, (Except.error.inj h).symm⟩
      · -- There is one error at most.
        rintro ⟨-, k', hk', rfl⟩
        rw [hchecked] at hk'
        cases hk'
        rfl
  case returns =>
    intro p hp
    rw [houtcome] at hp
    cases hvalue : (q.config.evaluation.evaluate q.expr).outcome with
    | error y =>
      rw [hvalue] at hp
      cases hp
    | ok v =>
      rw [hvalue] at hp
      cases hp
      refine ⟨congrArg Except.ok (Evaluator.eq_evaluate_of_outcome hvalue), ?_⟩
      rw [Report.text_eq, reportBody, Evaluator.eq_evaluate_of_outcome hvalue]
      cases q.config.output.metrics <;> rfl
  case counts => exact hcounts
  case shows =>
    intro labels hlabels
    -- Something has been counted, so that there is an entry.
    have hne : (q.serve r).registry.tally labels ≠ {} := by
      rw [hcounts labels hlabels]
      intro h
      cases congrArg Tally.calls h
    obtain ⟨shown, s, hmem, hs, hkey⟩ := Registry.exists_mem_of_tally_ne hne
    rw [hcounts labels hlabels] at hs
    refine ⟨shown, hkey, ?_, ?_⟩
    · intro hown
      exact hown _ hmem hkey
    · intro line hline
      rw [← hs] at hline
      exact mem_encode_of_mem hmem hline

/-- **Every request is answered by itself and counted once**, in a run of any requests from any
registry, whatever others do meanwhile to counts other than those of rendering and evaluating.  At
the end both of these have moved by the number of requests in successes and in calls, and by nothing
in failures, however many overflows there were.  Each request gets what it would get alone, and the
counts that it is shown include its own calls. -/
theorem serveAll_accounted (requests : List Request) (start : Registry) :
    (∀ labels ∈ recorded, (serveAll requests start).2.tally labels =
      ⟨(start.tally labels).successes + requests.length, (start.tally labels).failures,
        (start.tally labels).calls + requests.length⟩) ∧
    (serveAll requests start).1.length = requests.length ∧
    ∀ i q d, requests[i]? = some q → (serveAll requests start).1[i]? = some d →
      Accounted q start (i + 1) d := by
  refine ⟨?total, length_serveAll requests start, ?each⟩
  case total =>
    intro labels hlabels
    exact tally_serveAll requests start hlabels
  case each =>
    intro i q d hq hd
    obtain ⟨r, rfl, hr⟩ := exists_serve hq hd
    exact accounted_serve q hr

/-- A request for the product of the greatest integer and two, where overflow is checked. -/
def overflowingRequest : Request where
  config := { evaluation := { overflow := .checked } }
  expr := .multiplication (.constant 2147483647) (.constant 2)
  timing := ⟨⟨2000⟩, ⟨3000⟩⟩
  meanwhile := id
  untouched _ _ _ := rfl

/-- A request for a sum with its metrics, before which a call on other labels fails. -/
def sumRequest : Request where
  config := { output := { metrics := true } }
  expr := .addition (.constant 2) (.constant 4)
  timing := ⟨⟨1000⟩, ⟨4000⟩⟩
  meanwhile r :=
    let m : Measure := ⟨⟨"elsewhere", "run"⟩⟩
    (m.record (fun r => ((.error "lost" : Except String Unit), r)) r ⟨7000000⟩).2
  untouched := by
    intro labels hlabels r
    have hkeys : ∀ l ∈ recorded, l.key ≠ (Labels.mk "elsewhere" "run").key := by decide
    exact (Registry.tally_update_count _ _ _ r labels).trans (if_neg (hkeys labels hlabels))

/-- Of these requests the first overflows and the second returns, and the metrics that it returns
count both. -/
theorem serveAll_overflowing :
    (∀ labels ∈ recorded,
      (serveAll [overflowingRequest, sumRequest] []).2.tally labels = ⟨2, 0, 2⟩) ∧
    ∃ first second p, (serveAll [overflowingRequest, sumRequest] []).1 = [first, second] ∧
      first.outcome = .error (.evaluation (.overflow .multiplication)) ∧
      second.outcome = .ok p ∧
      p.text = " ( 2  +  4 )  = 6\n" ++ (Report.mk "" (encode second.registry)).text ∧
      ∀ labels ∈ recorded, ∀ line ∈ tallyLines labels ⟨2, 0, 2⟩,
        line ∈ encode second.registry := by
  obtain ⟨htotal, -, heach⟩ := serveAll_accounted [overflowingRequest, sumRequest] []
  constructor
  · intro labels hlabels
    rw [htotal labels hlabels]
    rfl
  · have hfirst := heach 0 overflowingRequest _ rfl rfl
    have hsecond := heach 1 sumRequest _ rfl rfl
    refine ⟨_, _, _, rfl, ?fails, rfl, ?text, ?lines⟩
    case fails => exact (hfirst.fails _).mpr ⟨rfl, .multiplication, rfl, rfl⟩
    case text =>
      rw [(hsecond.returns _ rfl).2]
      have hbody : sumRequest.expr.render ++ " = " ++ decimal32 sumRequest.expr.evaluate ++ "\n" ++
          "" = " ( 2  +  4 )  = 6\n" := by decide
      rw [← hbody]
      rfl
    case lines =>
      intro labels hlabels line hline
      obtain ⟨shown, hkey, hown, hlines⟩ := hsecond.shows labels hlabels
      -- The registry has three entries, and their keys differ.
      have hkeys : ∀ labels ∈ recorded,
          ∀ entry ∈ (sumRequest.serve (overflowingRequest.serve []).registry).registry,
            entry.1.key = labels.key → entry.1 = labels := by decide
      have hcounts : (Registry.tally labels []).afterSuccesses (1 + 1) = ⟨2, 0, 2⟩ := rfl
      rw [hown (hkeys labels hlabels), hcounts] at hlines
      exact hlines line hline

end Calculator
end Reckoner
