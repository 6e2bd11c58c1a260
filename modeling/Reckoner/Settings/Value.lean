import Reckoner.Text.Integer
import Reckoner.Decimal.Shortest
import Reckoner.Text.Quoted

/-!
# Values of settings

The values that settings can have before they are given a meaning.  The entries of a dictionary
are kept in the order of their keys, each key once.
-/

namespace Reckoner.Settings

inductive Value where
  | bool (value : Bool)
  /-- An integer written without a minus sign. -/
  | unsigned (n : Nat)
  /-- An integer written with a minus sign. -/
  | signed (i : Int)
  | real (x : Float)
  | text (text : String)
  /-- A single character, which is described as the text of it but is no word. -/
  | character (c : Char)
  | array (items : List Value)
  | dictionary (entries : List (String × Value))

namespace Value

/-- A value as messages name it. -/
def describe : Value → String
  | .bool true => "bool true"
  | .bool false => "bool false"
  | .unsigned n => "unsigned int `" ++ decimal n ++ "`"
  | .signed i => "signed int `" ++ decimal i ++ "`"
  | .real x => "float `" ++ positional x ++ "`"
  | .text t => "string " ++ quoted t
  | .character c => "string " ++ quoted c.toString
  | .array _ => "sequence"
  | .dictionary _ => "map"

/-- Puts an entry into a dictionary, in place of an entry of the same key. -/
def put (key : String) (value : Value) : List (String × Value) → List (String × Value)
  | [] => [(key, value)]
  | (k, v) :: rest =>
    if k = key then (key, value) :: rest
    else if key < k then (key, value) :: (k, v) :: rest
    else (k, v) :: put key value rest

/-- The value at a path of keys, with nothing beside it. -/
def nest (value : Value) : List String → Value
  | [] => value
  | key :: path => .dictionary [(key, nest value path)]

mutual

/-- Lets a value take the place of another one; dictionaries are merged entry by entry. -/
def merge (old : Value) : Value → Value
  | .dictionary entries =>
    match old with
    | .dictionary olds => .dictionary (mergeEntries olds entries)
    | _ => .dictionary entries
  | new => new

def mergeEntries (olds : List (String × Value)) : List (String × Value) → List (String × Value)
  | [] => olds
  | (key, value) :: rest =>
    let merged :=
      match olds.lookup key with
      | some old => merge old value
      | none => value
    mergeEntries (put key merged olds) rest

end

end Value

end Reckoner.Settings
