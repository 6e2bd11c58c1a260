import Reckoner.Json.Problem
import Reckoner.Json.Scanner
import Reckoner.Range32

/-!
# Reading drafts

A draft is read in one of two ways.  Normally its values are read as the text is walked, and only
a limited number of containers may be open at a time; what should not be there is wrong at its
first character.  A value that comes before it is known what it means is stored first, and read
from the store later; then nesting no longer matters, and what should not be there is a mismatch.
-/

namespace Reckoner.Json

inductive Reading where
  /-- From the text, with so many containers left that may still be opened. -/
  | direct (room : Nat)
  /-- From the store. -/
  | stored

/-- The number of containers that may be open at a time. -/
def nestingLimit : Nat := 127

namespace Reading

def enter : Reading → Except Problem Reading
  | .direct 0 => fault .malformed
  | .direct (room + 1) => .ok (.direct room)
  | .stored => .ok .stored

end Reading

/-! ## Storing a value -/

def keyName : Key → Except Problem String
  | .name name => .ok name
  | .unpaired => fault .malformed
  | .broken damage => fault damage.read

mutual

/-- Reads any value into the store, with so many containers left that may still be opened. -/
def store (room : Nat) : Draft → Except Problem Unit
  | .null => .ok ()
  | .bool _ => .ok ()
  -- What is stored is converted first: numbers out of range and half pairs do not get there.
  | .number n => if n.number?.isSome then .ok () else fault .malformed
  | .text t => if t.isSome then .ok () else fault .malformed
  | .array items damage =>
    match room with
    | 0 => fault .malformed
    | room + 1 => do
      storeItems room items
      orFault (Draft.ending damage)
  | .object members damage =>
    match room with
    | 0 => fault .malformed
    | room + 1 => do
      storeMembers room members
      orFault (Draft.ending damage)
  | .broken damage => fault damage.read

def storeItems (room : Nat) : List Draft → Except Problem Unit
  | [] => .ok ()
  | item :: items => do
    store room item
    storeItems room items

def storeMembers (room : Nat) : List (Key × Draft) → Except Problem Unit
  | [] => .ok ()
  | (key, value) :: members => do
    let _ ← keyName key
    store room value
    storeMembers room members

end

/-- Stores a value; what comes from the store is there already. -/
def Reading.keep (r : Reading) (d : Draft) : Except Problem Unit :=
  match r with
  | .direct room => store room d
  | .stored => .ok ()

/-! ## Ends of containers -/

/-- Ends an array of which so many items have been read. -/
def Reading.closeItems (r : Reading) (count : Nat) (more : List Draft) (damage : Option Damage) :
    Except Problem Unit :=
  match more with
  | [] => orFault (Draft.ending damage)
  | _ :: _ =>
    -- Only a stored array can be counted to its end.
    match r with
    | .direct _ => fault .malformed
    | .stored =>
      mismatch (.length (count + more.length)
        (if count = 1 then "1 element in sequence"
          else decimal count ++ " elements in sequence"))

/-- Ends an array that has only so many items. -/
def tooShort {α : Type} (count : Nat) (damage : Option Damage) (expected : String) :
    Except Problem α := do
  orFault (Draft.ending damage)
  mismatch (.length count expected)

/-! ## Numbers and names -/

def readInt32 (d : Draft) : Except Problem Int32 := do
  let found ← orFault d.found
  match found.integer? with
  | some i =>
    match toInt32? i with
    | some v => return v
    | none => mismatch (.content found "i32")
  | none => mismatch (.sort found "i32")

variable {α : Type}

def named (v : Vocabulary α) (word : String) : Except Problem α :=
  match v.find? word with
  | some a => .ok a
  | none => mismatch (.unknown word v.words)

def numbered (v : Vocabulary α) (n : Nat) : Except Problem α :=
  match v.at? n with
  | some a => .ok a
  | none =>
    mismatch (.content (.natural n) ("variant index 0 <= i < " ++ decimal v.length))

/-- Reads the word for a choice, or, from the store, its position. -/
def readIdentifier (v : Vocabulary α) (r : Reading) (d : Draft) : Except Problem α := do
  match ← orFault d.found, r with
  | .text word, _ => named v word
  | .natural n, .stored => numbered v n
  | found, _ => mismatch (.sort found "variant identifier")

/-- Requires that nothing is given along with a choice. -/
def readNothing (d : Draft) : Except Problem Unit := do
  match ← orFault d.found with
  | .null => return ()
  | found => mismatch (.sort found "unit")

/-- Reads the word for a choice where a name of a member stands. -/
def readKeyword (v : Vocabulary α) (key : Key) : Except Problem α := do
  named v (← keyName key)

/-- Reads a choice while the text is walked: its word, or an object whose first member has it for
a name and null for a value, and that ends there. -/
def readChoiceDirect (v : Vocabulary α) (room : Nat) (d : Draft) : Except Problem α := do
  match d with
  | .text (some word) => named v word
  | .broken damage => fault damage.name
  | .object ((key, value) :: more) damage =>
    let _ ← (Reading.direct room).enter
    let a ← readKeyword v key
    readNothing value
    match more with
    | [] => orFault (Draft.ending damage)
    | _ :: _ => fault .malformed
    return a
  | _ => fault .malformed

/-- Reads a choice from the store: its word, or an object whose only member has it for a name and
nothing in it. -/
def readChoiceStored (v : Vocabulary α) (d : Draft) : Except Problem α := do
  match d with
  | .object [(key, value)] _ =>
    let a ← readKeyword v key
    match value with
    -- In the store an empty object is as good as nothing.
    | .object [] _ => return a
    | value =>
      readNothing value
      return a
  | .object _ _ => mismatch (.content .map "map with a single key")
  | d =>
    match ← orFault d.found with
    | .text word => named v word
    | found => mismatch (.sort found "string or map")

def readChoice (v : Vocabulary α) (r : Reading) (d : Draft) : Except Problem α :=
  match r with
  | .direct room => readChoiceDirect v room d
  | .stored => readChoiceStored v d

/-- Reads a choice that is a document of its own, where a name that is given twice counts
once. -/
def choiceOfDocument (v : Vocabulary α) (d : Document) : Except Problem α := do
  match d with
  | .object members =>
    match (members.map (·.1)).eraseDups with
    | [word] =>
      let a ← named v word
      match d.member? word with
      | some value => readNothing value.draft
      | none => pure ()
      return a
    | _ => mismatch (.content .map "map with a single key")
  | d =>
    match ← orFault d.draft.found with
    | .text word => named v word
    | found => mismatch (.sort found "string or map")

/-! ## Texts -/

/-- Reads a text by reading the draft on it; nothing but blanks may follow. -/
def readText (read : Reading → Draft → Except Problem α) (text : String) :
    Except Problem α := do
  let (draft, rest) := scan text.toList
  let a ← read (.direct nestingLimit) draft
  if (skipGap rest).isEmpty then return a else fault .malformed

end Reckoner.Json
