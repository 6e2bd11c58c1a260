import Reckoner.Text.Integer

/-!
# Shortest decimals of floating-point numbers

A finite double stands for every real number that rounds to it.  `shortest` gives the decimal
with the fewest digits among those, and of two with equally few the nearer; all comparisons are
made between natural numbers.  Two formats write it down: `positional` never uses an exponent and
takes the greater of two decimals that are equally near, while `scientific` uses one for numbers
that are very small or very large and takes the decimal that ends in an even digit.
-/

namespace Reckoner

/-- A decimal `0.d₁d₂… · 10 ^ point`, whose figures `d₁d₂…` are the digits of a natural number that
does not end in zero. -/
structure Shortest where
  figures : List Char
  point : Int

/-- Which of two neighbouring decimals is taken if they are equally near. -/
inductive Tie where
  /-- The greater one. -/
  | greater
  /-- The one whose last digit is even. -/
  | even
  deriving DecidableEq

/-- Whether the lower one of two equally near neighbours is taken. -/
def Tie.takesLower (tie : Tie) (lower : Nat) : Bool :=
  match tie with
  | .greater => false
  | .even => lower % 2 = 0

structure Ratio where
  num : Nat
  den : Nat

namespace Ratio

def scaled (n base : Nat) (exponent : Int) : Ratio :=
  if 0 ≤ exponent then ⟨n * Nat.pow base exponent.toNat, 1⟩
  else ⟨n, Nat.pow base (-exponent).toNat⟩

def lt (a b : Ratio) : Bool := a.num * b.den < b.num * a.den

def le (a b : Ratio) : Bool := a.num * b.den ≤ b.num * a.den

/-- The greatest natural number that is not above the quotient `a / b`. -/
def quotient (a b : Ratio) : Nat := (a.num * b.den) / (a.den * b.num)

def distance (a b : Ratio) : Ratio :=
  let x := a.num * b.den
  let y := b.num * a.den
  ⟨if x ≤ y then y - x else x - y, a.den * b.den⟩

end Ratio

/-- A positive double: its value and the ends of the interval of reals that round to it, which
belong to the interval if `closed`. -/
structure Rounding where
  value : Ratio
  low : Ratio
  high : Ratio
  closed : Bool

namespace Rounding

/-- The double with a given exponent field and fraction field. -/
def ofFields (exponent fraction : Nat) : Rounding :=
  let mantissa := if exponent = 0 then fraction else fraction + Nat.pow 2 52
  -- the value is `mantissa * 2 ^ scale`; the interval is measured in quarters of that unit
  let scale := (Nat.max exponent 1 : Int) - 1075
  let quarters (n : Nat) := Ratio.scaled n 2 (scale - 2)
  { value := quarters (4 * mantissa)
    -- the doubles below a power of two lie half as far apart as those above
    low := quarters (if fraction = 0 && 1 < exponent then 4 * mantissa - 1 else 4 * mantissa - 2)
    high := quarters (4 * mantissa + 2)
    closed := mantissa % 2 = 0 }

/-- Whether a number rounds to the double. -/
def contains (r : Rounding) (x : Ratio) : Bool :=
  if r.closed then r.low.le x && x.le r.high else r.low.lt x && x.lt r.high

/-- The exponent `p` for which the value is below `10 ^ p` and not below `10 ^ (p - 1)`. -/
def point (r : Rounding) : Int :=
  let whole := r.value.num / r.value.den
  if whole = 0 then
    -- The zeros after the point are as many as the powers of ten needed to reach one, less one.
    let zeros := (List.range 330).find? fun k => r.value.den ≤ r.value.num * Nat.pow 10 (k + 1)
    Int.negOfNat (zeros.getD 330)
  else (digits whole).length

/-- The number on the grid of `count` digits that rounds to the double and is nearest to it. -/
def onGrid? (r : Rounding) (tie : Tie) (count : Nat) : Option (Nat × Int) :=
  let exponent := r.point - count
  let unit := Ratio.scaled 1 10 exponent
  let below := r.value.quotient unit
  let lower := Ratio.scaled below 10 exponent
  let upper := Ratio.scaled (below + 1) 10 exponent
  -- Zero is no decimal of a positive number.
  match r.contains lower && 0 < below, r.contains upper with
  | true, true =>
    let toLower := r.value.distance lower
    let toUpper := r.value.distance upper
    if toLower.lt toUpper || (toLower.le toUpper && tie.takesLower below) then
      some (below, exponent)
    else some (below + 1, exponent)
  | true, false => some (below, exponent)
  | false, true => some (below + 1, exponent)
  | false, false => none

/-- The decimal with the fewest digits that rounds to the double. -/
def shortest (r : Rounding) (tie : Tie) : Shortest :=
  -- Seventeen digits tell all doubles apart.
  let found := (List.range 17).findSome? fun k => r.onGrid? tie (k + 1)
  let (n, exponent) := found.getD (0, 0)
  let all := digits n
  ⟨(all.reverse.dropWhile (· == '0')).reverse, exponent + all.length⟩

end Rounding

/-- What the bits of a double say. -/
inductive Double where
  | nan
  | infinite (negative : Bool)
  | zero (negative : Bool)
  | finite (negative : Bool) (value : Rounding)

def Double.ofFloat (x : Float) : Double :=
  -- One bit for the sign, eleven for the exponent and fifty-two for the fraction.
  let bits := x.toBits.toNat
  let negative := bits / Nat.pow 2 63 = 1
  let exponent := bits / Nat.pow 2 52 % Nat.pow 2 11
  let fraction := bits % Nat.pow 2 52
  if exponent = 2047 then
    if fraction = 0 then .infinite negative else .nan
  else if exponent = 0 && fraction = 0 then .zero negative
  else .finite negative (.ofFields exponent fraction)

def withSign (negative : Bool) (text : String) : String :=
  if negative then "-" ++ text else text

namespace Shortest

def zeros (n : Nat) : List Char := List.replicate n '0'

/-- The decimal without an exponent; `whole` is put after a number that has no fraction. -/
def plain (s : Shortest) (whole : String) : String :=
  let count := s.figures.length
  if s.point ≤ 0 then
    "0." ++ String.ofList (zeros (-s.point).toNat ++ s.figures)
  else if s.point < count then
    String.ofList (s.figures.take s.point.toNat) ++ "." ++
      String.ofList (s.figures.drop s.point.toNat)
  else String.ofList (s.figures ++ zeros (s.point.toNat - count)) ++ whole

/-- The decimal with one digit before the point and an exponent with its sign. -/
def exponential (s : Shortest) : String :=
  let exponent := s.point - 1
  let significand :=
    match s.figures with
    | [] => "0"
    | [d] => d.toString
    | d :: rest => d.toString ++ "." ++ String.ofList rest
  significand ++ (if exponent < 0 then "e-" else "e+") ++
    String.ofList (digits exponent.natAbs)

end Shortest

/-- A double without an exponent, and without a fraction if it is whole. -/
def positional (x : Float) : String :=
  match Double.ofFloat x with
  | .nan => "NaN"
  | .infinite negative => withSign negative "inf"
  | .zero negative => withSign negative "0"
  | .finite negative r => withSign negative ((r.shortest .greater).plain "")

/-- A double with a fraction, and with an exponent instead if more than four zeros follow the point
or more than sixteen digits precede it. -/
def scientific (x : Float) : String :=
  match Double.ofFloat x with
  | .nan => "NaN"
  | .infinite negative => withSign negative "inf"
  | .zero negative => withSign negative "0.0"
  | .finite negative r =>
    let s := r.shortest .even
    withSign negative (if -4 ≤ s.point && s.point ≤ 16 then s.plain ".0" else s.exponential)

end Reckoner
