import Reckoner.Proofs.Calculator.Reports
import Reckoner.Proofs.Expr.RoundTrip
import Reckoner.Proofs.Rendering.UniqueReading
import Reckoner.Proofs.Text.Lines

/-!
# Reports are uniquely readable

What a report says before the metrics tells what it is about.  Its first line has the rendering and
the value, with the only equals sign between them, and it ends there: neither a rendering nor a
document has a line end in it (`Calculator.splitLines_body`).  The rendering can be read off the
front of the line, and the value is what stands behind the sign, so that the first line alone tells
the tree and the value (`Calculator.valueLine_inj`); a second line tells that the document was asked
for.
-/

namespace Reckoner.Calculator

open Metrics Settings

/-! ## The lines of a report -/

/-- The first line of a report. -/
def valueLine (e : Expr) (v : Int32) : List Char :=
  e.ink ++ ' ' :: '=' :: ' ' :: (decimal32 v).toList

/-- The other lines of a report, before the metrics. -/
def otherLines (output : Output) (e : Expr) : List (List Char) :=
  if output.json then [e.document.ink] else []

/-- A report that is made has a value, and its own lines are those for this value. -/
theorem exists_value_of_report {config : Config} {e : Expr} {r : Registry} {timing : Timing}
    {p : Report} (h : (report config e r timing).outcome = .ok p) :
    ∃ v, (config.evaluation.evaluate e).outcome = .ok v ∧
      p.body = reportBody config.output e e.render v := by
  rw [outcome_report] at h
  cases hvalue : (config.evaluation.evaluate e).outcome with
  | error x =>
    rw [hvalue] at h
    cases h
  | ok v =>
    rw [hvalue] at h
    cases h
    exact ⟨v, rfl, rfl⟩

theorem toList_reportBody (output : Output) (e : Expr) (v : Int32) :
    (reportBody output e e.render v).toList =
      (valueLine e v :: otherLines output e).flatMap (· ++ ['\n']) := by
  -- The document is on the second line, if it is shown.
  cases hjson : output.json with
  | false => simp [reportBody, valueLine, otherLines, hjson, Expr.toList_render]
  | true =>
    simp [reportBody, valueLine, otherLines, hjson, Expr.toList_render, Expr.json,
      Json.Document.toList_write]

theorem lineEnd_notMem_valueLine (e : Expr) (v : Int32) : '\n' ∉ valueLine e v := by
  have hink : '\n' ∉ e.ink := e.notMem_ink (by decide) (by decide)
  have hvalue : '\n' ∉ (decimal32 v).toList := notMem_decimal32 (by decide) (by decide) v
  simp [valueLine, hink, hvalue]

/-- A document takes one line. -/
theorem lineEnd_notMem_otherLines (output : Output) (e : Expr) :
    ∀ line ∈ otherLines output e, '\n' ∉ line := by
  intro line hline hmem
  have hdocument : line = e.document.ink := by
    unfold otherLines at hline
    split at hline
    · exact List.mem_singleton.mp hline
    · cases hline
  -- A document has no control characters.
  rw [hdocument] at hmem
  exact absurd (Json.Document.le_toNat_of_mem_ink e.wellFormed_document hmem) (by decide)

/-- Only the sign in front of the value is an equals sign. -/
theorem count_valueLine (e : Expr) (v : Int32) : (valueLine e v).count '=' = 1 := by
  have hink : '=' ∉ e.ink := e.notMem_ink (by decide) (by decide)
  have hvalue : '=' ∉ (decimal32 v).toList := notMem_decimal32 (by decide) (by decide) v
  simp [valueLine, List.count_append, List.count_eq_zero.mpr hink, List.count_eq_zero.mpr hvalue]

/-- The text is divided into the lines that it was made of, and nothing is left behind the last
one. -/
theorem splitLines_body (output : Output) (e : Expr) (v : Int32) :
    splitLines (reportBody output e e.render v).toList =
      (valueLine e v :: otherLines output e, []) := by
  rw [toList_reportBody]
  apply splitLines_join
  intro line hline
  rcases List.mem_cons.mp hline with rfl | hline
  · exact lineEnd_notMem_valueLine e v
  · exact lineEnd_notMem_otherLines output e line hline

/-! ## Reading a report -/

/-- The first line tells the tree and the value. -/
theorem valueLine_inj {e e' : Expr} {v v' : Int32} (h : valueLine e v = valueLine e' v') :
    e = e' ∧ v = v' := by
  -- A blank follows the rendering, so that it cannot go on with a digit.
  obtain ⟨htree, hrest⟩ := e.uniquelyReadable e' _ _ (noDigit_cons rfl) (noDigit_cons rfl) h
  simp only [List.cons.injEq, true_and] at hrest
  have hvalue : (decimal32 v).toList ++ [] = (decimal32 v').toList ++ [] := by
    rw [List.append_nil, List.append_nil, hrest]
  exact ⟨htree, (decimal32_append_inj noDigit_nil noDigit_nil hvalue).1⟩

theorem length_otherLines (output : Output) (e : Expr) :
    (otherLines output e).length = if output.json then 1 else 0 := by
  unfold otherLines
  split <;> rfl

/-- **A report tells what it is about.**  Its text is its own lines and then those of the metrics.
The own lines are one, or two with the document, and nothing but lines; the first has one equals
sign.  Reports of any configurations whose first lines are the same are on the same tree and show
the same value, and if all their own lines are the same, both or neither show the document.  How
long their calls take does not matter. -/
theorem reports_uniquelyReadable :
    (∀ config e r timing p, (report config e r timing).outcome = .ok p →
      p.text = p.body ++ (Report.mk "" p.metrics).text ∧
      ∃ first others, splitLines p.body.toList = (first :: others, []) ∧
        others.length = (if config.output.json then 1 else 0) ∧ first.count '=' = 1) ∧
    ∀ config config' e e' r r' timing timing' p p',
      (report config e r timing).outcome = .ok p →
      (report config' e' r' timing').outcome = .ok p' →
      ((splitLines p.body.toList).1.head? = (splitLines p'.body.toList).1.head? →
        e = e' ∧ ∃ v, (config.evaluation.evaluate e).outcome = .ok v ∧
          (config'.evaluation.evaluate e').outcome = .ok v) ∧
      (p.body = p'.body → e = e' ∧ config.output.json = config'.output.json ∧
        ∃ v, (config.evaluation.evaluate e).outcome = .ok v ∧
          (config'.evaluation.evaluate e').outcome = .ok v) := by
  constructor
  case left =>
    intro config e r timing p h
    obtain ⟨v, -, hbody⟩ := exists_value_of_report h
    refine ⟨Report.text_eq p.body p.metrics, valueLine e v, otherLines config.output e, ?_,
      length_otherLines config.output e, count_valueLine e v⟩
    rw [hbody, splitLines_body]
  case right =>
    intro config config' e e' r r' timing timing' p p' h h'
    obtain ⟨v, hvalue, hbody⟩ := exists_value_of_report h
    obtain ⟨v', hvalue', hbody'⟩ := exists_value_of_report h'
    rw [hbody, hbody', splitLines_body, splitLines_body]
    have hfirst : valueLine e v = valueLine e' v' → e = e' ∧
        ∃ v, (config.evaluation.evaluate e).outcome = .ok v ∧
          (config'.evaluation.evaluate e').outcome = .ok v := by
      intro heq
      obtain ⟨htree, rfl⟩ := valueLine_inj heq
      exact ⟨htree, v, hvalue, hvalue'⟩
    constructor
    · intro heads
      exact hfirst (Option.some.inj heads)
    · intro heq
      have hlines := congrArg (fun body : String => (splitLines body.toList).1) heq
      simp only [splitLines_body, List.cons.injEq] at hlines
      obtain ⟨htree, hshown⟩ := hfirst hlines.1
      refine ⟨htree, ?_, hshown⟩
      -- The number of lines tells whether the document is shown.
      have hlength := congrArg List.length hlines.2
      rw [length_otherLines, length_otherLines] at hlength
      cases hjson : config.output.json <;> cases hjson' : config'.output.json <;>
        simp [hjson, hjson'] at hlength ⊢

/-- Two reports on a sum, of which one shows the document as well. -/
theorem reports_uniquelyReadable_sum :
    ∃ p p', (report {} (.addition (.constant 2) (.constant 4)) []).outcome = .ok p ∧
      (report { output := { json := true } } (.addition (.constant 2) (.constant 4)) []).outcome =
        .ok p' ∧
      (∃ first, splitLines p.body.toList = ([first], []) ∧ first.count '=' = 1) ∧
      p.body ≠ p'.body := by
  refine ⟨_, _, rfl, rfl, ?_, ?_⟩
  · obtain ⟨-, first, others, hlines, hlength, hcount⟩ :=
      reports_uniquelyReadable.1 {} (.addition (.constant 2) (.constant 4)) [] {} _ rfl
    rw [List.eq_nil_of_length_eq_zero hlength] at hlines
    exact ⟨first, hlines, hcount⟩
  · intro heq
    obtain ⟨-, hjson, -⟩ := (reports_uniquelyReadable.2 {} { output := { json := true } } _ _ [] []
      {} {} _ _ rfl rfl).2 heq
    cases hjson

end Reckoner.Calculator
