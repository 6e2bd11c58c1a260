import Reckoner.Evaluator
import Reckoner.Settings.Environment

/-!
# The configuration

The calculator is configured by `evaluation`, an evaluator, and `output`, which says what to
print beside the value.  What is not set has its default, and settings without a meaning are
passed over.  Entries are read in the order of their keys, and the first wrong one is reported
with its path.  No configuration is read from an environment with a text that stands for no value,
whatever the variable.
-/

namespace Reckoner.Settings

/-! ## Problems -/

/-- Why a setting is wrong. -/
inductive Cause where
  /-- A value of another sort than the expected one. -/
  | sort (found : Value) (expected : String)
  /-- A word that is none of the known ones. -/
  | unknown (word : String) (known : List String)

/-- A wrong setting: why it is wrong, and where it is. -/
structure Problem where
  cause : Cause
  path : List String

def Cause.label : Cause → String
  | .sort _ _ => "InvalidType"
  | .unknown _ _ => "UnknownVariant"

def Cause.message : Cause → String
  | .sort found expected => "invalid type: found " ++ found.describe ++ ", expected " ++ expected
  | .unknown word known =>
    "unknown variant: found `" ++ word ++ "`, expected `" ++ alternatives known ++ "`"

/-- A problem in words, with its path in capitals. -/
def Problem.message (p : Problem) : String :=
  p.cause.message ++ " for key " ++
    quoted (".".intercalate (p.path.map fun key => String.ofList (key.toList.map Char.toUpper))) ++
    " in `" ++ namePrefix ++ "` environment variable(s)"

/-- Why an environment gives no configuration. -/
inductive Failure where
  /-- A text stands for no value. -/
  | unreadable
  /-- A setting is wrong. -/
  | wrong (problem : Problem)

variable {α : Type}

def wrong (cause : Cause) : Except Problem α := .error ⟨cause, []⟩

/-- Reads a value that has a key of its own: its problems are below that key. -/
def below (key : String) : Except Problem α → Except Problem α
  | .ok a => .ok a
  | .error p => .error { p with path := key :: p.path }

/-! ## Values with a meaning -/

def readBool : Value → Except Problem Bool
  | .bool b => .ok b
  | v => wrong (.sort v "a boolean")

def named (v : Vocabulary α) (word : String) : Except Problem α :=
  match v.find? word with
  | some a => .ok a
  | none => wrong (.unknown word v.words)

/-- Reads a choice that is called `name`: a word, or a dictionary with this word as its first
key.  A dictionary would have to give along nothing with the word, but every value is
something. -/
def readChoice (v : Vocabulary α) (name : String) : Value → Except Problem α
  | .text word => named v word
  | .dictionary [] => wrong (.sort (.dictionary []) "enum")
  | .dictionary ((word, value) :: _) =>
    below word do
      let _ ← named v word
      wrong (.sort value "unit")
  | value => wrong (.sort value ("enum " ++ name))

def readStrategy : Value → Except Problem Strategy := readChoice Strategy.vocabulary "Strategy"

def readOverflow : Value → Except Problem Overflow := readChoice Overflow.vocabulary "Overflow"

/-- Reads the entries of an evaluator on top of what has been read. -/
def readEvaluatorEntries (e : Evaluator) : List (String × Value) → Except Problem Evaluator
  | [] => .ok e
  | (key, value) :: rest => do
    if key = "strategy" then
      readEvaluatorEntries { e with strategy := ← below key (readStrategy value) } rest
    else if key = "overflow" then
      readEvaluatorEntries { e with overflow := ← below key (readOverflow value) } rest
    else readEvaluatorEntries e rest

/-- Reads an evaluator: a dictionary, or an array of strategy and overflow policy, of which the
last may be missing. -/
def readEvaluator : Value → Except Problem Evaluator
  | .dictionary entries => readEvaluatorEntries {} entries
  | .array [] => .ok {}
  | .array [strategy] => do
    return { strategy := ← below "0" (readStrategy strategy) }
  | .array (strategy :: overflow :: _) => do
    let strategy ← below "0" (readStrategy strategy)
    let overflow ← below "1" (readOverflow overflow)
    return { strategy, overflow }
  | value => wrong (.sort value "struct Evaluator")

/-- What is printed beside the value; by default nothing. -/
structure Output where
  /-- The tree as a document. -/
  json : Bool := false
  /-- The counts of the calls. -/
  metrics : Bool := false
  deriving DecidableEq

/-- Reads the entries of an output on top of what has been read. -/
def readOutputEntries (o : Output) : List (String × Value) → Except Problem Output
  | [] => .ok o
  | (key, value) :: rest => do
    if key = "json" then readOutputEntries { o with json := ← below key (readBool value) } rest
    else if key = "metrics" then
      readOutputEntries { o with metrics := ← below key (readBool value) } rest
    else readOutputEntries o rest

/-- Reads an output: a dictionary, or an array of the two truth values, of which the last may be
missing. -/
def readOutput : Value → Except Problem Output
  | .dictionary entries => readOutputEntries {} entries
  | .array [] => .ok {}
  | .array [json] => do
    return { json := ← below "0" (readBool json) }
  | .array (json :: metrics :: _) => do
    let json ← below "0" (readBool json)
    let metrics ← below "1" (readBool metrics)
    return { json, metrics }
  | value => wrong (.sort value "struct OutputConfig")

/-! ## The configuration -/

structure Config where
  evaluation : Evaluator := {}
  output : Output := {}
  deriving DecidableEq

/-- Reads the entries of a configuration on top of what has been read. -/
def readConfigEntries (c : Config) : List (String × Value) → Except Problem Config
  | [] => .ok c
  | (key, value) :: rest => do
    if key = "evaluation" then
      readConfigEntries { c with evaluation := ← below key (readEvaluator value) } rest
    else if key = "output" then
      readConfigEntries { c with output := ← below key (readOutput value) } rest
    else readConfigEntries c rest

namespace Config

/-- The configuration that some settings give. -/
def ofValue : Value → Except Problem Config
  | .dictionary entries => readConfigEntries {} entries
  | value => wrong (.sort value "struct Config")

def ofEnvironment (env : Environment) : Except Failure Config :=
  match load? env with
  | none => .error .unreadable
  | some settings => (ofValue settings).mapError .wrong

def boolTerm (b : Bool) : String := if b then "true" else "false"

def term (c : Config) : String :=
  "Config \x7b evaluation: " ++ c.evaluation.term ++ ", output: OutputConfig \x7b json: " ++
    boolTerm c.output.json ++ ", metrics: " ++ boolTerm c.output.metrics ++ " \x7d \x7d"

end Config

end Reckoner.Settings
