import Reckoner.Json.Draft
import Reckoner.Decimal.Shortest
import Reckoner.Text.Quoted
import Reckoner.Vocabulary

/-!
# Why a text cannot be read

Reading stops at the first problem, from left to right: a fault of the text itself, or a value
that is well formed but not what is wanted at its place.
-/

namespace Reckoner.Json

/-- A well-formed value in the wrong place. -/
inductive Mismatch where
  /-- A value of another sort. -/
  | sort (found : Found) (expected : String)
  /-- A value of the right sort that is not acceptable. -/
  | content (found : Found) (expected : String)
  /-- A sequence of the wrong length. -/
  | length (count : Nat) (expected : String)
  /-- A name that is none of the known ones. -/
  | unknown (name : String) (known : List String)
  | missing (field : String)
  | duplicate (field : String)

/-- Why a text cannot be read. -/
inductive Problem where
  | fault (fault : Fault)
  | mismatch (mismatch : Mismatch)

/-- A value as messages name it. -/
def Found.describe : Found → String
  | .null => "null"
  | .bool true => "boolean `true`"
  | .bool false => "boolean `false`"
  | .natural n => "integer `" ++ decimal n ++ "`"
  | .negative i => "integer `" ++ decimal i ++ "`"
  | .real x => "floating point `" ++ scientific x ++ "`"
  | .text t => "string " ++ quoted t
  | .sequence => "sequence"
  | .map => "map"

def Mismatch.message : Mismatch → String
  | .sort found expected => "invalid type: " ++ found.describe ++ ", expected " ++ expected
  | .content found expected => "invalid value: " ++ found.describe ++ ", expected " ++ expected
  | .length count expected => "invalid length " ++ decimal count ++ ", expected " ++ expected
  | .unknown name known => "unknown variant `" ++ name ++ "`, expected " ++ alternatives known
  | .missing field => "missing field `" ++ field ++ "`"
  | .duplicate field => "duplicate field `" ++ field ++ "`"

/-! ## Raising problems -/

variable {α : Type}

def fault (f : Fault) : Except Problem α := .error (.fault f)

def mismatch (m : Mismatch) : Except Problem α := .error (.mismatch m)

/-- What has been looked up, or the fault met in doing so. -/
def orFault : Except Fault α → Except Problem α
  | .ok a => .ok a
  | .error f => fault f

/-- Stops at a value of another sort than the expected one. -/
def refuse (d : Draft) (expected : String) : Except Problem α := do
  let found ← orFault d.found
  mismatch (.sort found expected)

end Reckoner.Json
