import Reckoner.Json.Fault
import Reckoner.Text.Integer

/-!
# Text literals

`writeText` puts a text between quotes and escapes what must not stand there.  `scanText` takes
a literal off the front of a text, after its opening quote.  A character can be written as the
UTF-16 units of its code point; a unit that is half of a surrogate pair without the other half
is a fault for a reader but not for one who only passes over the literal.
-/

namespace Reckoner.Json

/-! ## Writing -/

/-- The four hexadecimal digits of a number below 2 ^ 16. -/
def fourHexDigits (n : Nat) : List Char :=
  [n / 4096 % 16, n / 256 % 16, n / 16 % 16, n % 16].map Nat.digitChar

/-- A character as it is written inside a literal. -/
def escapedChar (c : Char) : List Char :=
  if c = '"' then ['\\', '"']
  else if c = '\\' then ['\\', '\\']
  else if c = '\x08' then ['\\', 'b']
  else if c = '\x0c' then ['\\', 'f']
  else if c = '\n' then ['\\', 'n']
  else if c = '\r' then ['\\', 'r']
  else if c = '\t' then ['\\', 't']
  else if c.toNat < 0x20 then '\\' :: 'u' :: fourHexDigits c.toNat
  else [c]

def writeText (out text : String) : String :=
  text.toList.foldl (fun out c => (escapedChar c).foldl String.push out) (out.push '"') |>.push '"'

/-! ## Reading -/

def hexNumber? (a b c d : Char) : Option Nat := do
  return (((← hexDigit? a) * 16 + (← hexDigit? b)) * 16 + (← hexDigit? c)) * 16 + (← hexDigit? d)

/-- The character that is written as a backslash and one letter. -/
def shortEscape? (c : Char) : Option Char :=
  if c = '"' then some '"'
  else if c = '\\' then some '\\'
  else if c = '/' then some '/'
  else if c = 'b' then some '\x08'
  else if c = 'f' then some '\x0c'
  else if c = 'n' then some '\n'
  else if c = 'r' then some '\r'
  else if c = 't' then some '\t'
  else none

/-- The content of a literal as far as it has been read. -/
structure Spelling where
  text : String := ""
  /-- No half of a surrogate pair has been met without the other. -/
  paired : Bool := true
  /-- The first half of a pair whose second half has to come next. -/
  first : Option Nat := none

namespace Spelling

/-- Appends a character; an open pair stays incomplete. -/
def push (s : Spelling) (c : Char) : Spelling :=
  ⟨s.text.push c, s.paired && s.first.isNone, none⟩

def pushUnit (s : Spelling) (unit : Nat) : Spelling :=
  if 0xDC00 ≤ unit ∧ unit ≤ 0xDFFF then
    match s.first with
    | some first =>
      let code := 0x10000 + (first - 0xD800) * 0x400 + (unit - 0xDC00)
      ⟨s.text.push (Char.ofNat code), s.paired, none⟩
    | none => ⟨s.text, false, none⟩
  else if 0xD800 ≤ unit ∧ unit ≤ 0xDBFF then ⟨s.text, s.paired && s.first.isNone, some unit⟩
  else s.push (Char.ofNat unit)

/-- The text, if all pairs are complete. -/
def finish (s : Spelling) : Option String :=
  if s.paired && s.first.isNone then some s.text else none

/-- A fault met here: a reader has stopped before it at an incomplete pair. -/
def damage (s : Spelling) (fault : Fault) : Damage :=
  let read := if s.paired then fault else .malformed
  ⟨read, fault, read⟩

end Spelling

/-- The fault of a text that has no four hexadecimal digits: it ends too early if it is shorter
than four bytes. -/
def hexMissing (cs : List Char) : Fault :=
  if (String.ofList (cs.take 4)).utf8ByteSize < 4 then .truncated else .malformed

/-- Takes the rest of a literal off a text: its content, or `none` if a surrogate pair is
incomplete, and the text after the closing quote. -/
def scanText (s : Spelling) (cs : List Char) : Except Damage (Option String × List Char) :=
  match cs with
  | [] => .error (s.damage .truncated)
  | c :: rest =>
    if c = '"' then .ok (s.finish, rest)
    else if c = '\\' then
      match rest with
      | [] => .error (s.damage .truncated)
      | e :: rest =>
        if e = 'u' then
          match rest with
          | a :: b :: c :: d :: rest =>
            match hexNumber? a b c d with
            | some unit => scanText (s.pushUnit unit) rest
            | none => .error (s.damage .malformed)
          | rest => .error (s.damage (hexMissing rest))
        else
          match shortEscape? e with
          | some x => scanText (s.push x) rest
          | none => .error (s.damage .malformed)
    else if c.toNat < 0x20 then .error (s.damage .malformed)
    else scanText (s.push c) rest

/-- A literal takes at least its closing quote. -/
theorem length_of_scanText {s : Spelling} {cs rest : List Char} {text : Option String}
    (h : scanText s cs = .ok (text, rest)) : rest.length < cs.length := by
  fun_induction scanText s cs with
  | case2 => simp_all
  | case4 | case7 | case10 =>
    rename_i ih
    have := ih h
    simp only [List.length_cons]
    omega
  | _ => cases h

end Reckoner.Json
