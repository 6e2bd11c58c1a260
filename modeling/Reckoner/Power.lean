import Reckoner.Range32

/-!
# Powers of 32-bit integers

`truncatedPower` is the mathematical rule: for an exponent that is not negative the exact power,
with `0 ^ 0 = 1`, and for a negative exponent the real power cut off toward zero, which does not
exist for base zero.  Exponents reach two thousand million, so the evaluators use
`representativePower`, which replaces a large exponent by a small one of the same parity: the
power of a base other than -1, 0 and 1 is then far out of the range of 32 bits on the same side,
and those three bases give the same value.
-/

namespace Reckoner

/-- The power cut off toward zero; `none` for a negative power of zero. -/
def truncatedPower (base exponent : Int) : Option Int :=
  if 0 ≤ exponent then some (Int.pow base exponent.toNat)
  else if base = 0 then none
  else if base = 1 then some 1
  else if base = -1 then some (if exponent % 2 = 0 then 1 else -1)
  else some 0

/-- The same exponent up to 33, and 32 or 33 by parity above. -/
def shortExponent (exponent : Int) : Int :=
  if exponent ≤ 33 then exponent else 32 + exponent % 2

/-- A number that is the power if that fits in 32 bits, and otherwise lies beyond the same end of
their range. -/
def representativePower (base exponent : Int32) : Option Int :=
  truncatedPower base.toInt (shortExponent exponent.toInt)

/-- The power brought into range: one that does not exist counts as too great. -/
def saturatingPower (base exponent : Int32) : Int32 :=
  match representativePower base exponent with
  | some p => Int32.ofIntClamp p
  | none => Int32.maxValue

/-- The power, if it exists and is in range. -/
def checkedPower (base exponent : Int32) : Option Int32 :=
  (representativePower base exponent).bind toInt32?

end Reckoner
