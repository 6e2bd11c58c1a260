import Reckoner.Calculator.Report
import Reckoner.Calculator.Sample
import Reckoner.Expr.Size

/-!
# Running the calculator

A run loads the configuration from the environment and reports on the sample.
-/

namespace Reckoner.Calculator

open Metrics Settings

inductive Failure where
  | settings (failure : Settings.Failure)
  | report (error : Error)

/-- The exit code that tells of a failure. -/
def Failure.code : Failure → UInt32
  | .settings .unreadable => 101
  | .settings (.wrong _) => 1
  | .report _ => 1

structure Ran where
  outcome : Except Failure Report
  log : List LogLine
  registry : Registry

def configLine (config : Config) : LogLine :=
  ⟨.info, "Loaded config: " ++ config.term⟩

def expressionLine (e : Expr) : LogLine :=
  ⟨.debug, "Built expression with " ++ decimal e.size ++ " nodes and depth " ++ decimal e.depth⟩

/-- The line about the evaluations so far. -/
def callsLine (registry : Registry) : LogLine :=
  let tally := registry.tally ⟨layer, "evaluate"⟩
  ⟨.debug, "evaluate: " ++ decimal tally.calls ++ " calls, " ++ decimal tally.failures ++
    " failures"⟩

/-- Loads the configuration and reports on the sample. -/
def run (env : Environment) (registry : Registry) (timing : Timing := {}) : Ran :=
  match Config.ofEnvironment env with
  | .error failure => ⟨.error (.settings failure), [], registry⟩
  | .ok config =>
    let opening := [configLine config, expressionLine sample]
    let reported := report config sample registry timing
    match reported.outcome with
    | .error x => ⟨.error (.report x), opening ++ reported.log, reported.registry⟩
    | .ok r =>
      ⟨.ok r, opening ++ reported.log ++ [callsLine reported.registry], reported.registry⟩

structure Exit where
  code : UInt32
  output : String

/-- Runs the calculator as a program of its own: without a report nothing is printed, and the exit
code tells why. -/
def execute (env : Environment) (timing : Timing := {}) : Exit :=
  match (run env [] timing).outcome with
  | .ok r => ⟨0, r.text⟩
  | .error failure => ⟨failure.code, ""⟩

end Reckoner.Calculator
