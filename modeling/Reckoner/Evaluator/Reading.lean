import Reckoner.Evaluator
import Reckoner.Json.Reading

/-!
# Reading evaluators

An evaluator is an object with the members `strategy` and `overflow`, either of which may be
missing, or an array of up to two items in this order.
-/

namespace Reckoner

open Json

namespace Evaluator

structure Settings where
  strategy : Option Strategy := none
  overflow : Option Overflow := none

/-- The evaluator with the default for what has not been set. -/
def Settings.evaluator (s : Settings) : Evaluator :=
  { strategy := s.strategy.getD Strategy.recursive, overflow := s.overflow.getD Overflow.wrapping }

def readMembers (r : Reading) (damage : Option Damage) (s : Settings) :
    List (Key × Draft) → Except Problem Evaluator
  | [] => do
    orFault (Draft.ending damage)
    return s.evaluator
  | (key, value) :: members => do
    let name ← keyName key
    if name = "strategy" then
      if s.strategy.isSome then mismatch (.duplicate name)
      else do
        let strategy ← readChoice Strategy.vocabulary r value
        readMembers r damage { s with strategy } members
    else if name = "overflow" then
      if s.overflow.isSome then mismatch (.duplicate name)
      else do
        let overflow ← readChoice Overflow.vocabulary r value
        readMembers r damage { s with overflow } members
    else do
      orFault value.skip
      readMembers r damage s members

def readItems (r : Reading) (damage : Option Damage) :
    List Draft → Except Problem Evaluator
  | [] => do
    r.closeItems 0 [] damage
    return {}
  | [strategy] => do
    let s : Settings := { strategy := ← readChoice Strategy.vocabulary r strategy }
    r.closeItems 1 [] damage
    return s.evaluator
  | strategy :: overflow :: more => do
    let strategy ← readChoice Strategy.vocabulary r strategy
    let overflow ← readChoice Overflow.vocabulary r overflow
    r.closeItems 2 more damage
    return { strategy, overflow }

def ofDraft (r : Reading) : Draft → Except Problem Evaluator
  | .array items damage => do readItems (← r.enter) damage items
  | .object members damage => do readMembers (← r.enter) damage {} members
  | d => refuse d "struct Evaluator"

def ofJson (text : String) : Except Problem Evaluator := readText ofDraft text

/-- The evaluator with the given settings, each a document of its own; the strategy is looked at
first. -/
def ofDocuments (strategy overflow : Option Document) : Except Problem Evaluator := do
  let strategy ← strategy.mapM (choiceOfDocument Strategy.vocabulary)
  let overflow ← overflow.mapM (choiceOfDocument Overflow.vocabulary)
  return Settings.evaluator { strategy, overflow }

end Evaluator

end Reckoner
