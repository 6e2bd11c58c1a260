import Reckoner.Json.Fault
import Reckoner.Text.Integer

/-!
# Number literals

A literal is kept as it is written, in its parts.  `Numeral.scan` takes one off the front of a
text, and `Numeral.number?` says what it stands for: a natural number below 2 ^ 64 or a negative
one not below -2 ^ 63 if it has neither fraction nor exponent, and a double otherwise.
-/

namespace Reckoner.Json

/-- A number literal in its parts. -/
structure Numeral where
  negative : Bool := false
  whole : List Char
  /-- The digits after the point. -/
  fraction : Option (List Char) := none
  /-- Whether the exponent is negative, and its digits. -/
  exponent : Option (Bool × List Char) := none
  deriving DecidableEq

namespace Numeral

def ofInt (i : Int) : Numeral := { negative := i < 0, whole := digits i.natAbs }

def text (n : Numeral) : String :=
  String.ofList <|
    (if n.negative then ['-'] else []) ++ n.whole ++
    (match n.fraction with
      | some ds => '.' :: ds
      | none => []) ++
    (match n.exponent with
      | some (true, ds) => 'e' :: '-' :: ds
      | some (false, ds) => 'e' :: ds
      | none => [])

/-! ## Taking a literal off a text -/

def takeDigits (cs : List Char) : List Char × List Char :=
  (cs.takeWhile isDigit, cs.dropWhile isDigit)

/-- The fault of a text in which a digit should come next.  Where the value is only passed over,
the end of the text is as wrong as any other character. -/
def digitMissing : List Char → Damage
  | [] => ⟨.truncated, .malformed, .malformed⟩
  | _ :: _ => .always .malformed

/-- The digits before the point: a zero stands alone. -/
def scanWhole : List Char → Except Damage (List Char × List Char)
  | '0' :: cs =>
    match cs with
    | c :: _ => if isDigit c then .error (.always .malformed) else .ok (['0'], cs)
    | [] => .ok (['0'], [])
  | cs =>
    match takeDigits cs with
    | ([], rest) => .error (digitMissing rest)
    | (ds, rest) => .ok (ds, rest)

/-- The point and the digits after it, if there is a point. -/
def scanFraction : List Char → Except Damage (Option (List Char) × List Char)
  | '.' :: cs =>
    match takeDigits cs with
    | ([], rest) => .error (digitMissing rest)
    | (ds, rest) => .ok (some ds, rest)
  | cs => .ok (none, cs)

/-- The sign of an exponent; no sign is plus. -/
def takeSign : List Char → Bool × List Char
  | '+' :: cs => (false, cs)
  | '-' :: cs => (true, cs)
  | cs => (false, cs)

/-- The mark, sign and digits of an exponent, if there is a mark. -/
def scanExponent (cs : List Char) : Except Damage (Option (Bool × List Char) × List Char) :=
  match cs with
  | c :: rest =>
    if c = 'e' ∨ c = 'E' then
      let (negative, rest) := takeSign rest
      match takeDigits rest with
      | ([], rest) => .error (digitMissing rest)
      | (ds, rest) => .ok (some (negative, ds), rest)
    else .ok (none, cs)
  | [] => .ok (none, [])

/-- Takes the parts of a literal after its sign off a text. -/
def scanUnsigned (negative : Bool) (cs : List Char) : Except Damage (Numeral × List Char) := do
  let (whole, cs) ← scanWhole cs
  let (fraction, cs) ← scanFraction cs
  let (exponent, cs) ← scanExponent cs
  return ({ negative, whole, fraction, exponent }, cs)

/-- Takes a literal off a text that starts with a minus sign or a digit. -/
def scan : List Char → Except Damage (Numeral × List Char)
  | '-' :: cs => scanUnsigned true cs
  | cs => scanUnsigned false cs

/-! ## What remains is shorter -/

/-- Digits are taken off, and the rest is left. -/
theorem length_takeDigits (cs : List Char) :
    (takeDigits cs).1.length + (takeDigits cs).2.length = cs.length := by
  rw [← List.length_append]
  exact congrArg List.length List.takeWhile_append_dropWhile

/-- At least one digit is taken. -/
theorem length_of_scanWhole {cs ds rest : List Char} (h : scanWhole cs = .ok (ds, rest)) :
    rest.length < cs.length := by
  unfold scanWhole at h
  split at h
  · split at h
    · split at h
      · cases h
      · cases h; simp
    · cases h; simp
  · have hl := length_takeDigits cs
    split at h
    · cases h
    next hd heq =>
      cases h
      rw [heq] at hl
      -- There is a digit, as otherwise one would be missing.
      rcases ds with _ | ⟨d, ds⟩
      · exact (hd rfl).elim
      · simp only [List.length_cons] at hl
        omega

/-- A fraction that is not there takes nothing. -/
theorem length_of_scanFraction {cs rest : List Char} {ds : Option (List Char)}
    (h : scanFraction cs = .ok (ds, rest)) : rest.length ≤ cs.length := by
  unfold scanFraction at h
  split at h
  next tail =>
    have hl := length_takeDigits tail
    split at h
    · cases h
    next heq =>
      cases h
      rw [heq] at hl
      simp only [List.length_cons] at hl ⊢
      omega
  · cases h
    exact Nat.le_refl _

/-- A sign that is not there takes nothing. -/
theorem length_takeSign (cs : List Char) : (takeSign cs).2.length ≤ cs.length := by
  unfold takeSign
  split <;> simp

/-- An exponent that is not there takes nothing. -/
theorem length_of_scanExponent {cs rest : List Char} {ds : Option (Bool × List Char)}
    (h : scanExponent cs = .ok (ds, rest)) : rest.length ≤ cs.length := by
  unfold scanExponent at h
  split at h
  next c tail =>
    split at h
    · have hs := length_takeSign tail
      have hl := length_takeDigits (takeSign tail).2
      simp only at h
      split at h
      · cases h
      next heq =>
        cases h
        rw [heq] at hl
        simp only [List.length_cons] at hl ⊢
        omega
    · cases h
      exact Nat.le_refl _
  · cases h
    exact Nat.le_refl _

/-- What follows the sign has at least one digit. -/
theorem length_of_scanUnsigned {negative : Bool} {cs rest : List Char} {n : Numeral}
    (h : scanUnsigned negative cs = .ok (n, rest)) : rest.length < cs.length := by
  unfold scanUnsigned at h
  -- The three parts are taken one after the other, and none of them may fail.
  rcases h1 : scanWhole cs with x | ⟨whole, cs1⟩
  · simp [h1, bind, Except.bind] at h
  rcases h2 : scanFraction cs1 with x | ⟨fraction, cs2⟩
  · simp [h1, h2, bind, Except.bind] at h
  rcases h3 : scanExponent cs2 with x | ⟨exponent, cs3⟩
  · simp [h1, h2, h3, bind, Except.bind] at h
  simp only [h1, h2, h3, bind, Except.bind, pure, Except.pure, Except.ok.injEq,
    Prod.mk.injEq] at h
  have := length_of_scanWhole h1
  have := length_of_scanFraction h2
  have := length_of_scanExponent h3
  have := h.2
  subst this
  omega

/-- A literal takes at least one character. -/
theorem length_of_scan {cs rest : List Char} {n : Numeral} (h : scan cs = .ok (n, rest)) :
    rest.length < cs.length := by
  unfold scan at h
  split at h
  · have := length_of_scanUnsigned h
    simp only [List.length_cons]
    omega
  · exact length_of_scanUnsigned h

end Numeral

/-! ## The number of a literal -/

/-- What a literal stands for. -/
inductive Number where
  | natural (n : Nat)
  /-- An integer below zero. -/
  | negative (i : Int)
  | real (x : Float)

namespace Numeral

/-- The greatest significand that is kept: later digits are dropped. -/
def significandLimit : Nat := Nat.pow 2 64 - 1

/-- Appends digits to a significand as long as it stays within the limit, and returns the digits
that are left. -/
def appendDigits (significand : Nat) : List Char → Nat × List Char
  | [] => (significand, [])
  | d :: ds =>
    let next := significand * 10 + ofDigits [d]
    if next ≤ significandLimit then appendDigits next ds else (significand, d :: ds)

/-- The greatest power of ten by which a double is scaled at once. -/
def greatestScale : Nat := 308

/-- A double multiplied by a power of ten; `none` if the result is infinite.  A larger negative
exponent is taken in steps. -/
def scale? (x : Float) (exponent : Int) : Option Float :=
  if 0 ≤ exponent then
    if exponent ≤ greatestScale then
      let y := x * Float.ofScientific 1 false exponent.toNat
      if y.isInf then none else some y
    else if x == 0.0 then some x
    else none
  else if -exponent ≤ greatestScale then
    some (x / Float.ofScientific 1 false (-exponent).toNat)
  else if x == 0.0 then some x
  else scale? (x / Float.ofScientific 1 false greatestScale) (exponent + greatestScale)
termination_by (-exponent).toNat
decreasing_by simp only [greatestScale] at *; omega

/-- The double of a literal; `none` if it is out of range.  An exponent beyond 32 bits makes any
significand but zero too great, or too small to differ from zero. -/
def magnitude? (n : Numeral) : Option Float :=
  let (significand, dropped) := appendDigits 0 n.whole
  let (significand, places) :=
    match n.fraction with
    | some ds =>
      -- Digits kept after the point lower the power of ten, digits dropped before it raise it.
      let (extended, rest) := appendDigits significand ds
      (extended, (dropped.length : Int) - (ds.length - rest.length : Nat))
    | none => (significand, (dropped.length : Int))
  let x := significand.toUInt64.toFloat
  match n.exponent with
  | none => scale? x places
  | some (below, ds) =>
    let exponent := ofDigits ds
    if exponent < Nat.pow 2 31 then
      scale? x (if below then places - exponent else places + exponent)
    else if significand = 0 || below then some 0.0
    else none

/-- What a literal stands for; `none` if it is out of range. -/
def number? (n : Numeral) : Option Number :=
  let whole := ofDigits n.whole
  let real := n.magnitude?.map fun x => Number.real (if n.negative then -x else x)
  if n.fraction.isSome || n.exponent.isSome then real
  else if n.negative then
    -- The literal `-0` is no integer.
    if 0 < whole && whole ≤ Nat.pow 2 63 then some (.negative (-whole)) else real
  else if whole ≤ significandLimit then some (.natural whole)
  else real

end Numeral

end Reckoner.Json
