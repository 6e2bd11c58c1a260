import Reckoner.Json.Document

/-!
# Drafts

A draft is a document as far as a text presents one.  It breaks off where the text has a fault:
the value that could not be read is `broken`, and a container in which something else than a
separator or its closing bracket was met says so.  A reader that walks a draft from left to right
therefore meets the faults of the text in their places, between the values.
-/

namespace Reckoner.Json

/-- The sort of a value, with its content where messages show it. -/
inductive Found where
  | null
  | bool (value : Bool)
  | natural (n : Nat)
  | negative (i : Int)
  | real (x : Float)
  | text (text : String)
  | sequence
  | map

/-- The sort of a number literal; `none` if it is out of range. -/
def Found.ofNumeral? (n : Numeral) : Option Found :=
  n.number?.map fun
    | .natural n => .natural n
    | .negative i => .negative i
    | .real x => .real x

def Found.integer? : Found → Option Int
  | .natural n => some n
  | .negative i => some i
  | _ => none

/-- What stands before the colon of a member. -/
inductive Key where
  | name (name : String)
  /-- A text with half of a surrogate pair. -/
  | unpaired
  /-- A text that breaks off, nothing, or something else than a text. -/
  | broken (damage : Damage)

/-- A document as far as it could be read. -/
inductive Draft where
  | null
  | bool (value : Bool)
  | number (numeral : Numeral)
  /-- A text; `none` if it has half of a surrogate pair. -/
  | text (text : Option String)
  /-- The items of an array, and what went wrong where it should have gone on or ended. -/
  | array (items : List Draft) (fault : Option Damage)
  /-- The members of an object, and what went wrong where it should have gone on or ended. -/
  | object (members : List (Key × Draft)) (fault : Option Damage)
  /-- No value could be read. -/
  | broken (damage : Damage)

namespace Draft

/-- The sort of a value, or the fault met in finding it out.  Containers are not looked into. -/
def found : Draft → Except Fault Found
  | .null => .ok .null
  | .bool b => .ok (.bool b)
  | .number n =>
    match Found.ofNumeral? n with
    | some found => .ok found
    | none => .error .malformed
  | .text (some t) => .ok (.text t)
  | .text none => .error .malformed
  | .array _ _ => .ok .sequence
  | .object _ _ => .ok .map
  | .broken damage => .error damage.read

/-- The end of a container, when it is read. -/
def ending : Option Damage → Except Fault Unit
  | none => .ok ()
  | some damage => .error damage.read

/-! ## Passing over a value -/

mutual

/-- Passes over a value; only its grammar matters, not the range of its numbers nor the surrogate
pairs of its texts. -/
def skip : Draft → Except Fault Unit
  | .array items fault =>
    match skipItems items with
    | .ok () => skipEnding fault
    | .error fault => .error fault
  | .object members fault =>
    match skipMembers members with
    | .ok () => skipEnding fault
    | .error fault => .error fault
  | .broken damage => .error damage.skip
  | _ => .ok ()

def skipItems : List Draft → Except Fault Unit
  | [] => .ok ()
  | item :: items =>
    match skip item with
    | .ok () => skipItems items
    | .error fault => .error fault

def skipMembers : List (Key × Draft) → Except Fault Unit
  | [] => .ok ()
  | (key, value) :: members =>
    match skipKey key with
    | .ok () =>
      match skip value with
      | .ok () => skipMembers members
      | .error fault => .error fault
    | .error fault => .error fault

def skipEnding : Option Damage → Except Fault Unit
  | none => .ok ()
  | some damage => .error damage.skip

def skipKey : Key → Except Fault Unit
  | .name _ => .ok ()
  | .unpaired => .ok ()
  | .broken damage => .error damage.skip

end

/-! ## Complete drafts -/

mutual

/-- The document that a draft presents, if nothing is wrong with it. -/
def document? : Draft → Option Document
  | .null => some .null
  | .bool b => some (.bool b)
  | .number n => some (.number n)
  | .text t => t.map .text
  | .array items none => (documents? items).map .array
  | .array _ (some _) => none
  | .object members none => (memberDocuments? members).map .object
  | .object _ (some _) => none
  | .broken _ => none

def documents? : List Draft → Option (List Document)
  | [] => some []
  | item :: items =>
    match document? item, documents? items with
    | some d, some ds => some (d :: ds)
    | _, _ => none

def memberDocuments? : List (Key × Draft) → Option (List (String × Document))
  | [] => some []
  | (key, value) :: members =>
    match key, document? value, memberDocuments? members with
    | .name name, some d, some ds => some ((name, d) :: ds)
    | _, _, _ => none

end

end Draft

mutual

/-- A document as a draft with nothing wrong in it. -/
def Document.draft : Document → Draft
  | .null => .null
  | .bool b => .bool b
  | .number n => .number n
  | .text t => .text (some t)
  | .array items => .array (Document.drafts items) none
  | .object members => .object (Document.memberDrafts members) none

def Document.drafts : List Document → List Draft
  | [] => []
  | item :: items => item.draft :: Document.drafts items

def Document.memberDrafts : List (String × Document) → List (Key × Draft)
  | [] => []
  | (name, value) :: members => (.name name, value.draft) :: Document.memberDrafts members

end

end Reckoner.Json
