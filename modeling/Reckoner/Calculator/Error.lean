import Reckoner.Calculator.Position
import Reckoner.Evaluation
import Reckoner.Metrics.Registry
import Reckoner.Text.Quoted

/-!
# Errors of the calculator

What can go wrong in a report.  An overflow is a property of the expression and not a fault of
the calculator, so that it does not count as a failure.
-/

namespace Reckoner.Calculator

/-- What went wrong in a report. -/
inductive Error where
  | evaluation (error : EvalError)
  | serialization (text : String)
  | telemetry (text : String)
  deriving DecidableEq

namespace Error

/-- The error that a message about a document which cannot be written makes. -/
def ofSerialization (text : String) : Error := .serialization (shownMessage text)

def message : Error → String
  | .evaluation e => "Evaluation Error: " ++ e.message
  | .serialization t => "Serialization Error: " ++ t
  | .telemetry t => "Telemetry Error: " ++ t

def label : Error → String
  | .evaluation _ => "Evaluation"
  | .serialization _ => "SerializeError"
  | .telemetry _ => "TelemetryError"

def term : Error → String
  | .evaluation e => "Evaluation(" ++ e.term ++ ")"
  | .serialization t => "SerializeError(" ++ quoted t ++ ")"
  | .telemetry t => "TelemetryError(" ++ quoted t ++ ")"

/-- Whether the error is a fault of the calculator. -/
def isFailure : Error → Bool
  | .evaluation _ => false
  | _ => true

instance : Metrics.Failing Error := ⟨isFailure⟩

end Error

end Reckoner.Calculator
