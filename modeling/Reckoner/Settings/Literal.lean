import Reckoner.Settings.Value
import Reckoner.Text.Blank

/-!
# Reading a value from the text of a variable

A text is read as a truth value, a number, a quoted text, a single character between
apostrophes, an array in brackets or a dictionary in braces; anything up to the next separator is
plain text.  If the reading fails or leaves something over, the whole text is plain text.

A quoted text is kept as it stands if it has no escapes.  If it has, what stands before the first
of them is cut to as many bytes as it has characters (`beforeEscape`), which takes nothing away
from ASCII (`beforeEscape_of_ascii`).  A cut inside a character is impossible, and a text that
demands one has no value at all.
-/

namespace Reckoner.Settings

/-! ## Obstacles -/

/-- Why a value cannot be taken off a text. -/
inductive Obstacle where
  /-- The text is not written as a value, and is plain text therefore. -/
  | malformed
  /-- A quoted text would have to be cut inside a character. -/
  | insideCharacter
  deriving DecidableEq

/-! ## Tokens -/

/-- The blanks that may stand around values: those of ASCII. -/
def isGap (c : Char) : Bool :=
  c == ' ' || c == '\t' || c == '\n' || c == '\x0c' || c == '\r'

def skipGap (cs : List Char) : List Char := cs.dropWhile isGap

/-- The characters that end plain text inside arrays and dictionaries. -/
def isSeparator (c : Char) : Bool :=
  c == ',' || c == '\x7b' || c == '\x7d' || c == '[' || c == ']'

/-- The characters of a key that is not quoted. -/
def isKeyChar (c : Char) : Bool := c.isAlphanum || c == '_' || c == '-'

/-- Takes so many hexadecimal digits off a text, and the character with that number. -/
def takeHex (count number : Nat) (cs : List Char) : Option (Char × List Char) :=
  match count, cs with
  | 0, cs => if number.isValidChar then some (Char.ofNat number, cs) else none
  | _ + 1, [] => none
  | count + 1, c :: cs =>
    match hexDigit? c with
    | some d => takeHex count (number * 16 + d) cs
    | none => none

/-- The character that is written as a backslash and one letter. -/
def shortEscape? (c : Char) : Option Char :=
  if c = '"' then some '"'
  else if c = '\\' then some '\\'
  else if c = 'b' then some '\x08'
  else if c = 'f' then some '\x0c'
  else if c = 'n' then some '\n'
  else if c = 'r' then some '\r'
  else if c = 't' then some '\t'
  else none

theorem length_of_takeHex {count number : Nat} {cs rest : List Char} {c : Char}
    (h : takeHex count number cs = some (c, rest)) : rest.length ≤ cs.length := by
  fun_induction takeHex count number cs with
  | case1 => cases h; exact Nat.le_refl _
  | case4 number count c cs d hd ih =>
    have := ih h
    simp only [List.length_cons]
    omega
  | _ => cases h

/-- Whether a character may stand unescaped in quoted text: control characters other than the
tab may not. -/
def isQuotable (c : Char) : Bool := c == '\t' || (0x20 ≤ c.toNat && c.toNat != 0x7F)

/-- Whether a character stands for itself in quoted text. -/
def isVerbatim (c : Char) : Bool := isQuotable c && c != '"' && c != '\\'

/-- The front part of a text that takes so many bytes in UTF-8; `none` if it would end inside a
character. -/
def cutBytes : Nat → List Char → Option (List Char)
  | 0, _ => some []
  | _ + 1, [] => some []
  | n + 1, c :: cs =>
    if c.utf8Size ≤ n + 1 then (cutBytes (n + 1 - c.utf8Size) cs).map (c :: ·) else none

/-- What is kept of the characters before the first escape of a quoted text: as many bytes as
there are characters. -/
def beforeEscape (cs : List Char) : Option (List Char) := cutBytes cs.length cs

theorem beforeEscape_of_ascii {cs : List Char} (h : ∀ c ∈ cs, c.utf8Size = 1) :
    beforeEscape cs = some cs := by
  unfold beforeEscape
  induction cs with
  | nil => rfl
  | cons c cs ih =>
    obtain ⟨hc, hcs⟩ := List.forall_mem_cons.1 h
    -- The first character takes one of the bytes.
    rw [List.length_cons, cutBytes, hc, if_pos (Nat.le_add_left 1 cs.length),
      Nat.add_sub_cancel, ih hcs, Option.map_some]

/-- Whether a quoted text has a closing quote; a quote after a backslash is none. -/
def isClosed : List Char → Bool
  | [] => false
  | '"' :: _ => true
  | '\\' :: _ :: cs => isClosed cs
  | _ :: cs => isClosed cs

/-- Takes the rest of a quoted text off a text, from its first escape on; `out` is what is kept
so far. -/
def takeEscaped (out : String) (cs : List Char) : Option (String × List Char) :=
  match cs with
  | [] => none
  | c :: rest =>
    if c = '"' then some (out, rest)
    else if c = '\\' then
      match rest with
      | [] => none
      | e :: rest =>
        if e = 'u' ∨ e = 'U' then
          match _h : takeHex (if e = 'u' then 4 else 8) 0 rest with
          | some (x, rest) => takeEscaped (out.push x) rest
          | none => none
        else
          match shortEscape? e with
          | some x => takeEscaped (out.push x) rest
          | none => none
    else if isQuotable c then takeEscaped (out.push c) rest
    else none
termination_by cs.length
decreasing_by
  · have := length_of_takeHex _h
    simp only [List.length_cons]
    omega
  · simp only [List.length_cons]
    omega
  · simp only [List.length_cons]
    omega

/-- Takes the rest of a quoted text off a text, after its opening quote. -/
def takeQuoted (cs : List Char) : Except Obstacle (String × List Char) :=
  let verbatim := cs.takeWhile isVerbatim
  match cs.dropWhile isVerbatim with
  | '"' :: rest => .ok (String.ofList verbatim, rest)
  | '\\' :: rest =>
    -- Escapes are looked at only if the text is closed.
    if isClosed ('\\' :: rest) then
      match beforeEscape verbatim with
      | none => .error .insideCharacter
      | some kept =>
        match takeEscaped (String.ofList kept) ('\\' :: rest) with
        | some taken => .ok taken
        | none => .error .malformed
    else .error .malformed
  | _ => .error .malformed

def takeKey (cs : List Char) : Except Obstacle (String × List Char) :=
  match cs with
  | '"' :: rest => takeQuoted rest
  | cs =>
    match cs.takeWhile isKeyChar with
    | [] => .error .malformed
    | key => .ok (String.ofList key, cs.dropWhile isKeyChar)

/-! ## Plain text -/

/-- The number of a text that consists of digits only. -/
def natural? (cs : List Char) : Option Nat :=
  if !cs.isEmpty && cs.all isDigit then some (ofDigits cs) else none

/-- An integer without a minus sign, below 2 ^ 64. -/
def unsigned? (cs : List Char) : Option Nat := do
  let n ← natural? (match cs with
    | '+' :: ds => ds
    | ds => ds)
  if n < Nat.pow 2 64 then some n else none

/-- An integer with a minus sign, not below -2 ^ 63. -/
def signed? : List Char → Option Int
  | '-' :: ds => do
    let n ← natural? ds
    if n ≤ Nat.pow 2 63 then some (-n) else none
  | _ => none

/-- The double nearest to a decimal fraction; beyond four hundred places it is zero or
infinite. -/
def nearestDouble (figures : List Char) (exponent : Int) : Float :=
  let significant := figures.dropWhile (· == '0')
  let point := significant.length + exponent
  if significant.isEmpty || point < -400 then 0.0
  else if 400 < point then 1.0 / 0.0
  else
    match exponent with
    | .ofNat e => Float.ofScientific (ofDigits significant) false e
    | .negSucc e => Float.ofScientific (ofDigits significant) true (e + 1)

/-- An exponent with its mark, or nothing. -/
def exponent? : List Char → Option Int
  | [] => some 0
  | c :: cs =>
    if c = 'e' ∨ c = 'E' then
      match cs with
      | '-' :: ds => (natural? ds).map fun n => -(n : Int)
      | '+' :: ds => (natural? ds).map fun n => (n : Int)
      | ds => (natural? ds).map fun n => (n : Int)
    else none

/-- A decimal fraction without a sign: digits with a point before, between or after them, and
perhaps an exponent. -/
def unsignedReal? (cs : List Char) : Option Float :=
  let whole := cs.takeWhile isDigit
  match cs.dropWhile isDigit with
  | '.' :: cs =>
    let fraction := cs.takeWhile isDigit
    if whole.isEmpty && fraction.isEmpty then none
    else (exponent? (cs.dropWhile isDigit)).map fun e =>
      nearestDouble (whole ++ fraction) (e - fraction.length)
  | _ => none

def real? : List Char → Option Float
  | '-' :: cs => (unsignedReal? cs).map fun x => -x
  | '+' :: cs => unsignedReal? cs
  | cs => unsignedReal? cs

/-- Plain text as a number, if it is one. -/
def plain (cs : List Char) : Value :=
  match real? cs, unsigned? cs, signed? cs with
  | some x, _, _ => .real x
  | _, some n, _ => .unsigned n
  | _, _, some i => .signed i
  | _, _, _ => .text (String.ofList cs)

/-! ## Values -/

/-- What is left of a text after a word, if it starts with it. -/
def afterWord (word : String) (cs : List Char) : Option (List Char) :=
  word.toList.isPrefixOf? cs

mutual

/-- Takes a value off a text; `fuel` bounds the calls. -/
def takeValue (fuel : Nat) (cs : List Char) : Except Obstacle (Value × List Char) :=
  match fuel with
  | 0 => .error .malformed
  | fuel + 1 => do
    let cs := skipGap cs
    let (value, rest) ←
      match afterWord "true" cs, afterWord "false" cs, cs with
      | some rest, _, _ => .ok (.bool true, rest)
      | _, some rest, _ => .ok (.bool false, rest)
      | _, _, '\x7b' :: rest => takeEntries fuel [] rest
      | _, _, '[' :: rest => takeItems fuel [] rest
      | _, _, '"' :: rest => (takeQuoted rest).map fun (t, rest) => (.text t, rest)
      | _, _, '\'' :: c :: '\'' :: rest => .ok (.character c, rest)
      | _, _, '\'' :: _ => .error .malformed
      | _, _, cs =>
        .ok (plain (trimBlank (cs.takeWhile fun c => !isSeparator c)),
          cs.dropWhile fun c => !isSeparator c)
    return (value, skipGap rest)

/-- Takes the rest of an array off a text, whose items so far are given latest first. -/
def takeItems (fuel : Nat) (before : List Value) (cs : List Char) :
    Except Obstacle (Value × List Char) :=
  match fuel with
  | 0 => .error .malformed
  | fuel + 1 =>
    match cs with
    | ']' :: rest => .ok (.array before.reverse, rest)
    | cs => do
      let (value, rest) ← takeValue fuel cs
      match rest with
      | ',' :: rest => takeItems fuel (value :: before) rest
      | ']' :: rest => .ok (.array (value :: before).reverse, rest)
      | _ => .error .malformed

def takeEntries (fuel : Nat) (before : List (String × Value)) (cs : List Char) :
    Except Obstacle (Value × List Char) :=
  match fuel with
  | 0 => .error .malformed
  | fuel + 1 =>
    match cs with
    | '\x7d' :: rest => .ok (.dictionary before, rest)
    | cs => do
      let (key, rest) ← takeKey (skipGap cs)
      match skipGap rest with
      | '=' :: rest => do
        let (value, rest) ← takeValue fuel rest
        match rest with
        | ',' :: rest => takeEntries fuel (Value.put key value before) rest
        | '\x7d' :: rest => .ok (.dictionary (Value.put key value before), rest)
        | _ => .error .malformed
      | _ => .error .malformed

end

/-- The value that the text of a variable stands for; `none` if it stands for none. -/
def Value.ofText? (text : String) : Option Value :=
  let cs := text.toList
  -- a call opens a container, goes on after a comma, or takes the value in between
  match takeValue (2 * cs.length + 2) cs with
  | .ok (value, []) => some value
  | .error .insideCharacter => none
  | _ => some (.text text)

end Reckoner.Settings
