import Reckoner.Evaluator.Reading
import Reckoner.Expr.Reading
import Reckoner.Expr.Size
import Reckoner.Expr.Term
import Reckoner.Postfix.Reading
import Reckoner.Rendering
import Reckoner.Text.Blank

/-!
# The workbench

A workbench holds a stack of trees and an evaluator.  Its steps are the tokens of postfix
programs, views of the top tree, and steps that evaluate, compare or replace trees.  A step that
cannot be done leaves the workbench as it is, except for what the first tokens of a repetition
have done.
-/

namespace Reckoner

open Json (Document)

/-- Trees under work, the latest first, and the evaluator in use. -/
structure Workbench where
  stack : Postfix.Stack := []
  evaluator : Evaluator := {}

namespace Workbench

/-! ## Steps and answers -/

inductive View where
  | kind
  | size
  | depth
  | render
  | normalize
  | term
  | json
  deriving DecidableEq

inductive Step where
  | token (token : Postfix.Token)
  | view (view : View)
  /-- Evaluates the top. -/
  | evaluate
  /-- Compares the top two. -/
  | compare
  /-- Puts the value of the top in its place. -/
  | reduce
  /-- Writes the top as a text and puts in its place what is read from the text. -/
  | reload
  /-- Uses another evaluator, if there is one. -/
  | adopt (evaluator : Except Json.Problem Evaluator)

inductive Answer where
  | nothing
  | truth (value : Bool)
  | count (n : Nat)
  | text (text : String)
  | value (value : Int32)
  | outcome (outcome : Except EvalError Int32)
  | evaluator (evaluator : Evaluator)

inductive Failure where
  | program (problem : Postfix.Problem)
  | evaluation (error : EvalError)
  | reading (problem : Json.Problem)

/-- Answers a question about a tree. -/
def View.answer (e : Expr) : View → Answer
  | .kind => .text e.kind.name
  | .size => .count e.size
  | .depth => .count e.depth
  | .render => .text e.render
  | .normalize => .text (Reckoner.normalize e.render)
  | .term => .text e.term
  | .json => .text e.json

/-! ## Performing steps -/

abbrev Effect := Except Failure Answer × Workbench

/-- Asks for the top; without one, nothing changes. -/
def withTop (w : Workbench) (step : Expr → List Expr → Effect) : Effect :=
  match w.stack with
  | e :: below => step e below
  | [] => (.error (.program .underflow), w)

/-- Asks for the top two, the top last; without them, nothing changes. -/
def withTopTwo (w : Workbench) (step : Expr → Expr → Effect) : Effect :=
  match w.stack with
  | b :: a :: _ => step a b
  | _ => (.error (.program .underflow), w)

def perform (style : Postfix.Style) (step : Step) (w : Workbench) : Effect :=
  match step with
  | .token token =>
    match token.run style w.stack with
    | (.ok (), stack) => (.ok .nothing, { w with stack })
    | (.error problem, stack) => (.error (.program problem), { w with stack })
  | .view view => w.withTop fun e _ => (.ok (view.answer e), w)
  | .evaluate => w.withTop fun e _ => (.ok (.outcome (w.evaluator.evaluate e).outcome), w)
  | .compare => w.withTopTwo fun a b => (.ok (.truth (a = b)), w)
  | .reduce => w.withTop fun e below =>
    match (w.evaluator.evaluate e).outcome with
    | .ok v => (.ok (.value v), { w with stack := .constant v :: below })
    | .error x => (.error (.evaluation x), w)
  | .reload => w.withTop fun e below =>
    match Expr.ofJson e.json with
    | .ok e' => (.ok (.truth (e = e')), { w with stack := e' :: below })
    | .error problem => (.error (.reading problem), w)
  | .adopt (.ok evaluator) => (.ok (.evaluator evaluator), { w with evaluator })
  | .adopt (.error problem) => (.error (.reading problem), w)

/-! ## Reading steps -/

/-- The steps that are words, apart from tokens. -/
def words : Vocabulary Step :=
  [("kind", .view .kind), ("size", .view .size), ("depth", .view .depth),
    ("render", .view .render), ("normalize", .view .normalize), ("debug", .view .term),
    ("json", .view .json), ("eval", .evaluate), ("eq", .compare), ("reduce", .reduce),
    ("reload", .reload)]

/-- Reads a step; what is no step of its own is a token. -/
def Step.ofDocument (d : Document) : Step :=
  let own :=
    match d with
    | .text word => words.find? word
    | d => (d.member? "evaluator").map fun (settings : Document) =>
      .adopt (Evaluator.ofDocuments (settings.given? "strategy") (settings.given? "overflow"))
  own.getD (.token (Postfix.Token.ofDocument d))

end Workbench

end Reckoner
