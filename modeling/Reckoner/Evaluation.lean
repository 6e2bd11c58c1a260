import Reckoner.Expr.Machine
import Reckoner.Power

/-!
# Evaluation

Two arithmetics give a tree a value.  The wrapping one always has an answer: sums, products and
negations are taken modulo 2 ^ 32, and powers are brought into range.  The checked one fails at
the first node, operands first, whose value is not a 32-bit integer.
-/

namespace Reckoner

/-- Why a tree has no value. -/
inductive EvalError where
  /-- The value of a node of this kind is out of range. -/
  | overflow (kind : Kind)
  deriving DecidableEq

namespace EvalError

def kind : EvalError → Kind
  | .overflow kind => kind

def message : EvalError → String
  | .overflow kind => "Overflow evaluating " ++ kind.name

def term : EvalError → String
  | .overflow kind => "Overflow(" ++ kind.label ++ ")"

end EvalError

/-- Arithmetic modulo 2 ^ 32, with powers brought into range. -/
def wrappingArithmetic : Algebra Int32
  | .constant v => v
  | .negate a => -a
  | .exponent a n => saturatingPower a n
  | .addition a b => a + b
  | .multiplication a b => a * b

/-- The exact value of a node whose operands have been evaluated, if it is a 32-bit integer. -/
def exactValue : Node Int32 → Option Int32
  | .constant v => some v
  | .negate a => toInt32? (-a.toInt)
  | .exponent a n => checkedPower a n
  | .addition a b => toInt32? (a.toInt + b.toInt)
  | .multiplication a b => toInt32? (a.toInt * b.toInt)

/-- Exact arithmetic that fails at a node whose value is out of range. -/
def checkedArithmetic : Folder Unit EvalError Int32 :=
  fun node s =>
    match exactValue node with
    | some v => (.ok v, s)
    | none => (.error (.overflow node.kind), s)

namespace Expr

/-- The value in wrapping arithmetic. -/
def evaluate (e : Expr) : Int32 := e.value wrappingArithmetic

def evaluateStack (e : Expr) : Int32 := e.valueStack wrappingArithmetic

/-- The value in checked arithmetic. -/
def checkedEvaluate (e : Expr) : Except EvalError Int32 := (e.fold checkedArithmetic ()).1

def checkedEvaluateStack (e : Expr) : Except EvalError Int32 :=
  (e.foldStack checkedArithmetic ()).1

end Expr

end Reckoner
