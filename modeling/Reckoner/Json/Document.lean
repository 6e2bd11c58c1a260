import Reckoner.Json.Numeral
import Reckoner.Json.Text

/-!
# Documents

A JSON document as a tree.  Members of objects keep their order, and a name may occur more than
once.  `Document.write` is the compact form, without any blanks.
-/

namespace Reckoner.Json

inductive Document where
  | null
  | bool (value : Bool)
  | number (numeral : Numeral)
  | text (text : String)
  | array (items : List Document)
  | object (members : List (String × Document))

namespace Document

def int (i : Int) : Document := .number (.ofInt i)

def int32 (v : Int32) : Document := int v.toInt

mutual

/-- Writes a document after a given text. -/
def writeTo (out : String) : Document → String
  | .null => out ++ "null"
  | .bool true => out ++ "true"
  | .bool false => out ++ "false"
  | .number n => out ++ n.text
  | .text t => writeText out t
  | .array items => writeItems (out.push '[') "" items |>.push ']'
  | .object members => writeMembers (out.push '\x7b') "" members |>.push '\x7d'

/-- Writes the items of an array, with a separator before the first one. -/
def writeItems (out separator : String) : List Document → String
  | [] => out
  | item :: items => writeItems (writeTo (out ++ separator) item) "," items

/-- Writes the members of an object, with a separator before the first one. -/
def writeMembers (out separator : String) : List (String × Document) → String
  | [] => out
  | (name, value) :: members =>
    writeMembers (writeTo ((writeText (out ++ separator) name).push ':') value) "," members

end

def write (d : Document) : String := writeTo "" d

/-- The integer that a document is.  Numbers with a fraction or an exponent are no integers, nor
are those that take more than 64 bits. -/
def integer? : Document → Option Int
  | .number n =>
    match n.number? with
    | some (.natural n) => some n
    | some (.negative i) => some i
    | _ => none
  | _ => none

def natural? (d : Document) : Option Nat :=
  match d.integer? with
  | some (.ofNat n) => some n
  | _ => none

/-- The values of all members of a given name, in order. -/
def membersNamed (name : String) : Document → List Document
  | .object members => (members.filter (·.1 == name)).map (·.2)
  | _ => []

/-- The value of the last member of a given name. -/
def member? (name : String) (d : Document) : Option Document := (d.membersNamed name).getLast?

/-- The value of the last member of a given name, where null counts as no value. -/
def given? (name : String) (d : Document) : Option Document :=
  match d.member? name with
  | some .null => none
  | value => value

end Document

end Reckoner.Json
