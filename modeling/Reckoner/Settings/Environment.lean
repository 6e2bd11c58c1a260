import Reckoner.Settings.Literal

/-!
# Settings from environment variables

A variable is a setting if its name starts with `APP_`, in any case.  What follows is a path of
keys: the first underscore counts as a dot, and dots separate keys.  Settings are read in order,
and a later one takes the place of an earlier one at the same path, except that dictionaries are
merged.  If one of the texts stands for no value, nothing is loaded.
-/

namespace Reckoner.Settings

/-- Environment variables: names and texts, in order. -/
abbrev Environment := List (String × String)

namespace Environment

/-- Gives a variable a text; a variable that is there already keeps its place. -/
def set (name text : String) : Environment → Environment
  | [] => [(name, text)]
  | (n, t) :: rest => if n = name then (n, text) :: rest else (n, t) :: set name text rest

/-- The environment after some variables have been set one after the other. -/
def ofList (assignments : List (String × String)) : Environment :=
  assignments.foldl (fun env (name, text) => env.set name text) []

end Environment

/-! ## Paths -/

/-- What the names of settings start with. -/
def namePrefix : String := "APP_"

/-- A text in lower case, as far as it is ASCII. -/
def lowerCase (cs : List Char) : List Char := cs.map Char.toLower

/-- What follows the prefix of a name. -/
def afterPrefix (cs : List Char) : Option (List Char) :=
  let n := namePrefix.length
  if lowerCase (cs.take n) = lowerCase namePrefix.toList then some (cs.drop n) else none

/-- A text with a dot for its first underscore. -/
def dotUnderscore : List Char → List Char
  | [] => []
  | c :: cs => if c = '_' then '.' :: cs else c :: dotUnderscore cs

def splitDots : List Char → List (List Char)
  | [] => [[]]
  | c :: cs =>
    if c = '.' then [] :: splitDots cs
    else
      match splitDots cs with
      | part :: parts => (c :: part) :: parts
      | [] => [[c]]

/-- The path of a setting; `none` if the variable is no setting or a part of its path is
empty. -/
def path? (name : String) : Option (List String) := do
  let key ← afterPrefix (trimBlank name.toList)
  let parts := splitDots (lowerCase (trimBlank (dotUnderscore key)))
  if parts.any List.isEmpty then none else some (parts.map String.ofList)

/-! ## Loading -/

/-- Adds a variable to the settings; `none` if its text stands for no value. -/
def addVariable? (settings : Value) (entry : String × String) : Option Value :=
  match path? entry.1 with
  | some path => (Value.ofText? entry.2).map fun value => settings.merge (.nest value path)
  | none => some settings

def load? (env : Environment) : Option Value := env.foldlM addVariable? (.dictionary [])

end Reckoner.Settings
