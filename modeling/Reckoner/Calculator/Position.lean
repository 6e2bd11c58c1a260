import Reckoner.Text.Integer

/-!
# Messages with a position

A message about a text may end in a position, ` at line L column C`.  The two numbers are kept as
numbers, so that leading zeros are lost when the message is shown again, and a position in line
zero is no position and is not shown.
-/

namespace Reckoner.Calculator

structure Located where
  message : List Char
  line : Nat
  column : Nat

/-- A number of 64 bits at the front of a text, and the text after its digits. -/
def takeNumber? (cs : List Char) : Option (Nat × List Char) :=
  match cs.takeWhile isDigit with
  | [] => none
  | ds => if ofDigits ds < Nat.pow 2 64 then some (ofDigits ds, cs.dropWhile isDigit) else none

/-- What a position starts with. -/
def lineMark : List Char := " at line ".toList

/-- What stands between the line and the column of a position. -/
def columnMark : List Char := " column ".toList

/-- A text as the numbers of a position, after its first mark. -/
def position? (cs : List Char) : Option (Nat × Nat) := do
  let (line, rest) ← takeNumber? cs
  let rest ← columnMark.isPrefixOf? rest
  match ← takeNumber? rest with
  | (column, []) => some (line, column)
  | _ => none

/-- The text before and after the last mark of a position. -/
def splitMark? : List Char → Option (List Char × List Char)
  | [] => none
  | c :: cs =>
    match splitMark? cs with
    | some (before, after) => some (c :: before, after)
    | none => (lineMark.isPrefixOf? (c :: cs)).map fun after => ([], after)

/-- The message and the position that a text consists of. -/
def Located.ofChars? (cs : List Char) : Option Located := do
  let (message, after) ← splitMark? cs
  let (line, column) ← position? after
  return { message, line, column }

def Located.text (l : Located) : String :=
  if l.line = 0 then String.ofList l.message
  else
    String.ofList (l.message ++ lineMark) ++ decimal l.line ++
      String.ofList columnMark ++ decimal l.column

/-- A message as it is shown once its position has been read. -/
def shownMessage (text : String) : String :=
  match Located.ofChars? text.toList with
  | some located => located.text
  | none => text

end Reckoner.Calculator
