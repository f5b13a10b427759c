import DialogueScript.Json.Basic
import DialogueScript.Text.Integer

set_option autoImplicit false

/-!
# Numbers in JSON text

A number without point and exponent is an integer as long as it fits in a 64-bit word, signed or
not; `-0` and everything larger are floating-point numbers.

A floating-point number is computed in floating-point arithmetic: its leading digits, as many as
fit in 64 bits, are rounded to a double, which is then multiplied or divided by a power of ten.
The result may therefore miss the nearest double by a little. A number too large for a double is
refused, and one too small is zero.

## Main definitions

* `DialogueScript.Json.Numeral` — the parts of a number's text.
* `DialogueScript.Json.Numeral.read?` — taking a number off the front of a text.
* `DialogueScript.Json.Numeral.value?` — the value of a number.
-/

namespace DialogueScript.Json

/-- The parts of a number's text. -/
structure Numeral where
  /-- There is a minus sign. -/
  negative : Bool
  /-- The digits in front of the point. -/
  whole : List Char
  /-- The digits behind the point, if there is one. -/
  fraction : Option (List Char)
  /-- The exponent, if there is one: whether it is negative, and its digits. -/
  exponent : Option (Bool × List Char)

namespace Numeral

/-! ## Text -/

/-- Take the digits in front of the point: a single zero, or digits that begin with none. -/
def readWhole? (cs : List Char) : Option (List Char × List Char) :=
  match cs.takeWhile Char.isDigit with
  | [] => none
  | ['0'] => some (['0'], cs.dropWhile Char.isDigit)
  | '0' :: _ => none
  | digits => some (digits, cs.dropWhile Char.isDigit)

/-- Take at least one digit. -/
def readDigits? (cs : List Char) : Option (List Char × List Char) :=
  match cs.takeWhile Char.isDigit with
  | [] => none
  | digits => some (digits, cs.dropWhile Char.isDigit)

/-- Take the point and the digits behind it, if there is a point. -/
def readFraction? : List Char → Option (Option (List Char) × List Char)
  | '.' :: cs => (readDigits? cs).map fun (digits, rest) => (some digits, rest)
  | cs => some (none, cs)

/-- Take the exponent, if there is one. -/
def readExponent? : List Char → Option (Option (Bool × List Char) × List Char)
  | c :: cs =>
    if c = 'e' ∨ c = 'E' then
      let (negative, digits) :=
        match cs with
        | '-' :: ds => (true, ds)
        | '+' :: ds => (false, ds)
        | ds => (false, ds)
      (readDigits? digits).map fun (digits, rest) => (some (negative, digits), rest)
    else some (none, c :: cs)
  | [] => some (none, [])

/-- Take a number off the front of a text. -/
def read? (cs : List Char) : Option (Numeral × List Char) := do
  let (negative, cs) :=
    match cs with
    | '-' :: ds => (true, ds)
    | ds => (false, ds)
  let (whole, cs) ← readWhole? cs
  let (fraction, cs) ← readFraction? cs
  let (exponent, cs) ← readExponent? cs
  return (⟨negative, whole, fraction, exponent⟩, cs)

/-! ## Value -/

/-- Take in digits as long as the number they make fits in 64 bits; the second component counts
the digits that were left out. -/
def absorbWhole (significand : Nat) : List Char → Nat × Int
  | [] => (significand, 0)
  | c :: cs =>
    let next := 10 * significand + Text.digitValue c
    if next < UInt64.size then absorbWhole next cs else (significand, cs.length + 1)

/-- Take in digits behind the point as long as the number they make fits in 64 bits; each one
lowers the power of ten. -/
def absorbFraction (significand : Nat) (power : Int) : List Char → Nat × Int
  | [] => (significand, power)
  | c :: cs =>
    let next := 10 * significand + Text.digitValue c
    if next < UInt64.size then absorbFraction next (power - 1) cs else (significand, power)

/-- A power of ten up to the three hundred and eighth. -/
def powerOfTen (n : Nat) : Float :=
  Float.ofScientific 1 false n

/-- Divide by a power of ten, in steps that doubles can represent. Nothing is left of a 64-bit
number after three steps. -/
def divideByPower : (steps : Nat) → Float → Nat → Float
  | 0, x, _ => x
  | steps + 1, x, n =>
    if n ≤ 308 then x / powerOfTen n
    else if x == 0 then x
    else divideByPower steps (x / powerOfTen 308) (n - 308)

/-- A 64-bit number times a power of ten, if it is not too large. -/
def scale? (significand : Nat) (power : Int) : Option Float :=
  let x := significand.toUInt64.toFloat
  match power with
  | .ofNat n =>
    if n ≤ 308 then
      let y := x * powerOfTen n
      if y.isInf then none else some y
    else if x == 0 then some x
    else none
  | .negSucc n => some (divideByPower 4 x (n + 1))

/-- The magnitude of a number with a point or an exponent, or of one that fits in no word. An
exponent that fits in no 32-bit word decides the value by its sign. -/
def magnitude? (n : Numeral) : Option Float :=
  let (significand, power) := absorbWhole 0 n.whole
  let (significand, power) :=
    match n.fraction with
    | none => (significand, power)
    | some digits => absorbFraction significand power digits
  match n.exponent with
  | none => scale? significand power
  | some (negative, digits) =>
    let shift := Text.natOfDigits digits
    if Int.ofNat shift ≤ Int32.maxValue.toInt then
      scale? significand (if negative then power - shift else power + shift)
    else if significand = 0 ∨ negative then some 0
    else none

/-- The floating-point value of a number. -/
def float? (n : Numeral) : Option Json :=
  n.magnitude?.map fun x => .float (if n.negative then -x else x)

/-- The value of a number. -/
def value? (n : Numeral) : Option Json :=
  let size := Text.natOfDigits n.whole
  if n.fraction.isSome || n.exponent.isSome then n.float?
  else if n.negative then
    if 0 < size ∧ Int64.minValue.toInt ≤ - Int.ofNat size then some (.int (- Int.ofNat size))
    else n.float?
  else if size < UInt64.size then some (.int (Int.ofNat size))
  else n.float?

end Numeral

end DialogueScript.Json
