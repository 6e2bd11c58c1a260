/-!
# Digits

The one way in which integers are written throughout: a minus sign for negative numbers, then
the digits without leading zeros.  Hexadecimal digits are only read, inside escapes.
-/

namespace Reckoner

def digits (n : Nat) : List Char := Nat.toDigits 10 n

/-- The number that a run of decimal digits stands for. -/
def ofDigits (cs : List Char) : Nat := Nat.ofDigitChars 10 cs 0

theorem ofDigits_digits (n : Nat) : ofDigits (digits n) = n :=
  Nat.ofDigitChars_ten_toDigits

/-- Whether a character is one of the ten decimal digits. -/
def isDigit (c : Char) : Bool := c.isDigit

theorem isDigit_of_mem_digits {n : Nat} {c : Char} (h : c ∈ digits n) : isDigit c = true :=
  Nat.isDigit_of_mem_toDigits (by decide) (by decide) h

def decimal (i : Int) : String :=
  match i with
  | .ofNat n => String.ofList (digits n)
  | .negSucc n => String.ofList ('-' :: digits (n + 1))

def decimal32 (v : Int32) : String := decimal v.toInt

/-! ## Hexadecimal digits -/

/-- The number that a hexadecimal digit stands for. -/
def hexDigit? (c : Char) : Option Nat :=
  if '0' ≤ c ∧ c ≤ '9' then some (c.toNat - '0'.toNat)
  else if 'a' ≤ c ∧ c ≤ 'f' then some (c.toNat - 'a'.toNat + 10)
  else if 'A' ≤ c ∧ c ≤ 'F' then some (c.toNat - 'A'.toNat + 10)
  else none

end Reckoner
