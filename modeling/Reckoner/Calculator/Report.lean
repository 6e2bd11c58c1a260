import Reckoner.Calculator.Error
import Reckoner.Expr.Document
import Reckoner.Metrics.Exposition
import Reckoner.Rendering
import Reckoner.Settings.Config

/-!
# Reports

A report shows an expression with its value, and on request also as a document and with the
metrics of all calls.  Rendering and evaluating are recorded, each under a measure of its own, and
the metrics that are shown include the report's own calls.
-/

namespace Reckoner.Calculator

open Metrics Settings

/-- The layer to which the recorded calls belong. -/
def layer : String := "calculator"

/-- How long the two calls that a report records take. -/
structure Timing where
  rendering : Duration := {}
  evaluating : Duration := {}

/-- A report: its own lines, and the lines of the metrics. -/
structure Report where
  body : String
  metrics : List String

def Report.text (r : Report) : String :=
  r.metrics.foldl (fun out line => out ++ line ++ "\n") r.body

/-- What a call of `report` leaves: a report or an error, the lines it logged, and the
registry. -/
structure Reported where
  outcome : Except Error Report
  log : List LogLine
  registry : Registry

/-- The lines of a report on an expression and its value. -/
def reportBody (output : Output) (e : Expr) (rendered : String) (value : Int32) : String :=
  rendered ++ " = " ++ decimal32 value ++ "\n" ++ (if output.json then e.json ++ "\n" else "")

/-- Renders and evaluates an expression and reports on it. -/
def report (config : Config) (e : Expr) (registry : Registry) (timing : Timing := {}) :
    Reported :=
  let (rendering, registry) := Measure.create layer "render" registry
  let (rendered, registry) :=
    rendering.record (fun r => ((.ok e.render : Except Empty String), r)) registry
      timing.rendering
  let (evaluating, registry) := Measure.create layer "evaluate" registry
  let evaluated := config.evaluation.evaluate e
  let (value, registry) :=
    evaluating.record (fun r => (evaluated.outcome.mapError Error.evaluation, r)) registry
      timing.evaluating
  match value with
  | .error x => ⟨.error x, evaluated.log, registry⟩
  | .ok v =>
    let body := reportBody config.output e (certain rendered) v
    let metrics := if config.output.metrics then encode registry else []
    ⟨.ok ⟨body, metrics⟩, evaluated.log, registry⟩

end Reckoner.Calculator
