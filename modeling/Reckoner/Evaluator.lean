import Reckoner.Evaluation
import Reckoner.Log

/-!
# Evaluators

An evaluator fixes how a tree is walked and what happens on overflow.  The strategy changes
nothing but the word in the log line that a failure leaves.
-/

namespace Reckoner

/-- How a tree is walked. -/
inductive Strategy where
  | recursive
  /-- On an explicit stack, for trees too deep to recurse into. -/
  | iterative
  deriving DecidableEq

/-- What happens to a value that is out of range. -/
inductive Overflow where
  /-- It is taken modulo 2 ^ 32, or, for powers, brought into range. -/
  | wrapping
  /-- Evaluation fails. -/
  | checked
  deriving DecidableEq

namespace Strategy

def all : List Strategy := [.recursive, .iterative]

def name : Strategy → String
  | .recursive => "recursive"
  | .iterative => "iterative"

def label : Strategy → String
  | .recursive => "Recursive"
  | .iterative => "Iterative"

def vocabulary : Vocabulary Strategy := .ofNames all name

end Strategy

namespace Overflow

def all : List Overflow := [.wrapping, .checked]

def name : Overflow → String
  | .wrapping => "wrapping"
  | .checked => "checked"

def label : Overflow → String
  | .wrapping => "Wrapping"
  | .checked => "Checked"

def vocabulary : Vocabulary Overflow := .ofNames all name

end Overflow

/-- A way of evaluating trees; by default recursive and wrapping. -/
structure Evaluator where
  strategy : Strategy := .recursive
  overflow : Overflow := .wrapping
  deriving DecidableEq

instance : Inhabited Evaluator := ⟨{}⟩

/-- The result of an evaluation and the lines it logged. -/
structure Evaluated where
  outcome : Except EvalError Int32
  log : List LogLine

namespace Evaluator

def outcome (evaluator : Evaluator) (e : Expr) : Except EvalError Int32 :=
  match evaluator.overflow, evaluator.strategy with
  | .wrapping, .recursive => .ok e.evaluate
  | .wrapping, .iterative => .ok e.evaluateStack
  | .checked, .recursive => e.checkedEvaluate
  | .checked, .iterative => e.checkedEvaluateStack

/-- The line that a failed evaluation leaves in the log. -/
def failureLine (evaluator : Evaluator) (e : Expr) (error : EvalError) : LogLine where
  level := .debug
  message := evaluator.strategy.name ++ " evaluation of " ++ e.kind.name ++
    " expression failed: " ++ error.message

/-- Evaluates a tree; a failure is logged. -/
def evaluate (evaluator : Evaluator) (e : Expr) : Evaluated :=
  match evaluator.outcome e with
  | .ok v => ⟨.ok v, []⟩
  | .error x => ⟨.error x, [evaluator.failureLine e x]⟩

def term (evaluator : Evaluator) : String :=
  "Evaluator \x7b strategy: " ++ evaluator.strategy.label ++ ", overflow: " ++
    evaluator.overflow.label ++ " \x7d"

end Evaluator

end Reckoner
