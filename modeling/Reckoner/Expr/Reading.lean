import Reckoner.Expr.Document
import Reckoner.Json.Reading

/-!
# Reading trees

A node is an object with the members `type` and `value` in either order, other members being
passed over, or an array of the two.  If `value` comes first, it is stored until `type` has been
read.  The pairs that are the content of powers, sums and products are arrays.
-/

namespace Reckoner
namespace Expr

open Json

/-- The kinds whose content is a pair. -/
inductive Pair where
  | exponent
  | addition
  | multiplication

def Pair.label : Pair → String
  | .exponent => Kind.exponent.label
  | .addition => Kind.addition.label
  | .multiplication => Kind.multiplication.label

/-- What a value is to be read as. -/
inductive Wanted where
  /-- A tree. -/
  | tree
  /-- The number of a constant. -/
  | constant
  /-- The content of a power, a sum or a product. -/
  | pair (pair : Pair)

/-- What the content of a node is to be read as. -/
def wanted : Kind → Wanted
  | .constant => .constant
  | .negate => .tree
  | .exponent => .pair .exponent
  | .addition => .pair .addition
  | .multiplication => .pair .multiplication

/-- The node of a kind, from what its content has been read as. -/
def wrap : Kind → Expr → Expr
  | .negate, e => .negate e
  | _, e => e

namespace Wanted

/-- The value in question as messages name it. -/
def name : Wanted → String
  | .tree => "adjacently tagged enum Expression"
  | .constant => "i32"
  | .pair p => "tuple variant Expression::" ++ p.label

/-- An array of the right length for the value in question, as messages name it. -/
def lengthName : Wanted → String
  | .pair p => name (.pair p) ++ " with 2 elements"
  | w => w.name

end Wanted

def pass (d : Draft) : Except Problem Unit := orFault d.skip

/-- Goes through the members after the last one that matters: neither `type` nor `value` may come
again. -/
def closeMembers (damage : Option Damage) : List (Key × Draft) → Except Problem Unit
  | [] => orFault (Draft.ending damage)
  | (key, value) :: members => do
    let name ← keyName key
    if name = "type" ∨ name = "value" then mismatch (.duplicate name)
    else do
      -- Other members are not looked into.
      pass value
      closeMembers damage members

/-- Looks for `type` among the members after `value`, and returns those after it. -/
def readKind (r : Reading) (damage : Option Damage) :
    List (Key × Draft) → Except Problem (Kind × List (Key × Draft))
  | [] => do
    orFault (Draft.ending damage)
    mismatch (.missing "type")
  | (key, value) :: members => do
    let name ← keyName key
    if name = "type" then return (← readChoice Kind.vocabulary r value, members)
    else if name = "value" then mismatch (.duplicate name)
    else do
      pass value
      readKind r damage members

mutual

/-- Reads a value as what is wanted. -/
def readAs (r : Reading) (w : Wanted) : Draft → Except Problem Expr
  | .array items damage =>
    match w with
    | .tree => do readTagged (← r.enter) damage items
    | .constant => mismatch (.sort .sequence w.name)
    | .pair p => do readPair (← r.enter) p damage items
  | .object members damage =>
    match w with
    | .tree => do readMembers (← r.enter) damage members
    | w => mismatch (.sort .map w.name)
  | d =>
    match w with
    | .constant => return .constant (← readInt32 d)
    | w => refuse d w.name

def readTagged (r : Reading) (damage : Option Damage) : List Draft → Except Problem Expr
  | [] => tooShort 0 damage Wanted.tree.lengthName
  | [kind] => do
    let _ ← readIdentifier Kind.vocabulary r kind
    tooShort 1 damage Wanted.tree.lengthName
  | kind :: content :: more => do
    let kind ← readIdentifier Kind.vocabulary r kind
    let e ← readAs r (wanted kind) content
    r.closeItems 2 more damage
    return wrap kind e

/-- Reads the array of two operands, or of base and exponent. -/
def readPair (r : Reading) (p : Pair) (damage : Option Damage) : List Draft → Except Problem Expr
  | [] => tooShort 0 damage (Wanted.pair p).lengthName
  | [first] => do
    let _ ← readAs r .tree first
    tooShort 1 damage (Wanted.pair p).lengthName
  | first :: second :: more => do
    let left ← readAs r .tree first
    let e ← match p with
      | .exponent => do pure (.exponent left (← readInt32 second))
      | .addition => do pure (.addition left (← readAs r .tree second))
      | .multiplication => do pure (.multiplication left (← readAs r .tree second))
    r.closeItems 2 more damage
    return e

/-- Reads the members of a node, of which none that matters has been met. -/
def readMembers (r : Reading) (damage : Option Damage) : List (Key × Draft) → Except Problem Expr
  | [] => do
    orFault (Draft.ending damage)
    mismatch (.missing "type")
  | (key, value) :: members => do
    let name ← keyName key
    if name = "type" then do
      let kind ← readChoice Kind.vocabulary r value
      readContent r kind damage members
    else if name = "value" then do
      -- The kind is not known yet: the value is kept and read once its kind has come.
      r.keep value
      let (kind, members) ← readKind r damage members
      let e ← readAs .stored (wanted kind) value
      closeMembers damage members
      return wrap kind e
    else do
      pass value
      readMembers r damage members

/-- Reads the members of a node after its `type`. -/
def readContent (r : Reading) (kind : Kind) (damage : Option Damage) :
    List (Key × Draft) → Except Problem Expr
  | [] => do
    orFault (Draft.ending damage)
    mismatch (.missing "value")
  | (key, value) :: members => do
    let name ← keyName key
    if name = "type" then mismatch (.duplicate name)
    else if name = "value" then do
      let e ← readAs r (wanted kind) value
      closeMembers damage members
      return wrap kind e
    else do
      pass value
      readContent r kind damage members

end

def ofDraft (r : Reading) (d : Draft) : Except Problem Expr := readAs r .tree d

def ofJson (text : String) : Except Problem Expr := readText ofDraft text

end Expr
end Reckoner
