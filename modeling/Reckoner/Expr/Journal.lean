import Reckoner.Expr.Fold
import Reckoner.Text.Integer

/-!
# Journals of folds

What a folder is asked can be written down.  `journaled` wraps any folder so that every question
is noted before it is answered, and `narrator` is a folder that spells a tree in operator-first
form, keeps such a journal, and can be told to give up at a certain question or above a certain
constant.
-/

namespace Reckoner

namespace Node

/-- A node without its operands, in a few characters. -/
def symbol {α : Type} : Node α → String
  | .constant v => decimal32 v
  | .negate _ => "neg"
  | .exponent _ n => "^" ++ decimal32 n
  | .addition _ _ => "+"
  | .multiplication _ _ => "*"

end Node

/-- The same folder, noting every question it is asked. -/
def journaled {σ ε α : Type} (f : Folder σ ε α) : Folder (Array (Node α) × σ) ε α :=
  fun node (journal, s) =>
    let (answer, s) := f node s
    (answer, (journal.push node, s))

/-- When a narrator gives up. -/
structure Limits where
  /-- The number of the question, counted from one, at which to fail. -/
  question : Option Nat
  /-- The greatest constant that is accepted. -/
  constant : Option Int

inductive Refusal where
  | question (symbol : String)
  | constant (value : Int32) (bound : Int)

namespace Refusal

def message : Refusal → String
  | .question symbol => "failed at " ++ symbol
  | .constant value bound => decimal32 value ++ " above " ++ decimal bound

end Refusal

/-- A node in operator-first form, its operands being spelled already. -/
def spell : Algebra String
  | .constant v => decimal32 v
  | .negate a => "(neg " ++ a ++ ")"
  | .exponent a n => "(^" ++ decimal32 n ++ " " ++ a ++ ")"
  | .addition a b => "(+ " ++ a ++ " " ++ b ++ ")"
  | .multiplication a b => "(* " ++ a ++ " " ++ b ++ ")"

/-- Whether a node is a constant above a bound. -/
def refused {α : Type} (bound : Option Int) : Node α → Option Refusal
  | .constant v =>
    match bound with
    | some b => if b < v.toInt then some (.constant v b) else none
    | none => none
  | _ => none

/-- Notes the symbol of each node and spells it, within limits; the limit on questions is looked
at first. -/
def narrator (limits : Limits) : Folder (Array String) Refusal String :=
  fun node journal =>
    let journal := journal.push node.symbol
    if limits.question = some journal.size then
      (.error (.question node.symbol), journal)
    else
      match refused limits.constant node with
      | some refusal => (.error refusal, journal)
      | none => (.ok (spell node), journal)

end Reckoner
