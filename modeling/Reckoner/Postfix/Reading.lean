import Reckoner.Json.Document
import Reckoner.Postfix.Program
import Reckoner.Range32

/-!
# Reading postfix programs

A program is an array.  Its items are 32-bit integers, the words for operators, objects with the
exponent of a power under `^`, and objects with a count under `rep` and a program under `do`.
Something else is a token that cannot be carried out, so that the tokens before it still are.
-/

namespace Reckoner.Postfix

open Json (Document)

def words : Vocabulary Token :=
  [("neg", .negate), ("+", .addition), ("*", .multiplication), ("dup", .duplicate),
    ("swap", .exchange), ("drop", .drop), ("sample", .sample)]

/-- The token with a 32-bit integer. -/
def Token.withInt32 (token : Int32 → Token) (d : Document) : Token :=
  match d.integer?.bind toInt32? with
  | some v => token v
  | none => .unreadable .number

mutual

def Token.ofDocument : Document → Token
  | .number n => Token.withInt32 .constant (.number n)
  | .text word => (words.find? word).getD (.unreadable .token)
  | .object members =>
    let d := Document.object members
    match d.member? "^", (d.member? "rep").bind Document.natural?, (bodies members).getLast? with
    | some power, _, _ => Token.withInt32 .exponent power
    | none, some times, some (some body) => .repetition times body
    | _, _, _ => .unreadable .token
  | _ => .unreadable .token

def Program.ofItems : List Document → Program
  | [] => []
  | item :: items => Token.ofDocument item :: Program.ofItems items

/-- Reads the members under `do`; only arrays are programs. -/
def bodies : List (String × Document) → List (Option Program)
  | [] => []
  | (name, .array items) :: rest =>
    if name = "do" then some (Program.ofItems items) :: bodies rest else bodies rest
  | (name, _) :: rest => if name = "do" then none :: bodies rest else bodies rest

end

def Program.ofDocument : Option Document → Except Problem Program
  | some (.array items) => .ok (Program.ofItems items)
  | _ => .error .program

end Reckoner.Postfix
