import DialogueScript.Decimal.Binary
import DialogueScript.Text.Integer

set_option autoImplicit false

/-!
# The shortest decimal that reads back

Among the decimals that round to a given double, the ones with the fewest digits are chosen, and
of these the nearest to the double; which of two equally near ones it is, is a matter of choice.
For each number of digits only the two neighbours of the double on that decimal grid need to be
looked at.

## Main definitions

* `DialogueScript.Decimal.Scientific` — an integer times a power of ten.
* `DialogueScript.Decimal.Tie` — which of two equally near decimals is taken.
* `DialogueScript.Decimal.shortest` — the shortest decimal of a positive double.
-/

namespace DialogueScript.Decimal

/-- The number `digits * 10 ^ exponent`. -/
structure Scientific where
  /-- The digits as one number. -/
  digits : Nat
  /-- The power of ten of the last digit. -/
  exponent : Int
  deriving DecidableEq, Repr

/-- Which of two equally near decimals is taken. -/
inductive Tie
  /-- The greater one. -/
  | greater
  /-- The one whose last digit is even. -/
  | even
  deriving DecidableEq, Repr

/-- Of the neighbours `digits` and `digits + 1`, the lower one is taken if they are equally near. -/
def Tie.takesLower (tie : Tie) (digits : Nat) : Bool :=
  match tie with
  | .greater => false
  | .even => digits % 2 == 0

/-- The number of decimal digits. -/
def digitCount (n : Nat) : Nat :=
  (Text.showNat n).length

/-- The power of ten of the leading digit of the positive fraction `num / den`. -/
def leadingExponent (num den : Nat) : Int :=
  if den ≤ num then digitCount (num / den) - 1
  else - (digitCount ((den + num - 1) / num - 1) : Int)

namespace RoundingInterval

/-- The decimal lies in the interval. -/
def contains (i : RoundingInterval) (d : Scientific) : Bool :=
  let point := d.digits * Nat.pow 10 d.exponent.toNat * i.den
  let scale := Nat.pow 10 (- d.exponent).toNat
  if i.closed then decide (i.low * scale ≤ point) && decide (point ≤ i.high * scale)
  else decide (i.low * scale < point) && decide (point < i.high * scale)

/-- The best decimal on the grid of `10 ^ exponent`, if one of the value's two neighbours on it
lies in the interval. -/
def onGrid? (i : RoundingInterval) (tie : Tie) (exponent : Int) : Option Scientific :=
  let num := i.value * Nat.pow 10 (- exponent).toNat
  let den := i.den * Nat.pow 10 exponent.toNat
  let lower : Scientific := ⟨num / den, exponent⟩
  let upper : Scientific := ⟨num / den + 1, exponent⟩
  let preferLower :=
    decide (2 * (num % den) < den) || 2 * (num % den) == den && tie.takesLower lower.digits
  match i.contains lower, i.contains upper with
  | true, true => some (if preferLower then lower else upper)
  | true, false => some lower
  | false, true => some upper
  | false, false => none

end RoundingInterval

/-- Move zeros at the end of the digits into the exponent, at most `fuel` of them. -/
def Scientific.strip : (fuel : Nat) → Scientific → Scientific
  | 0, d => d
  | fuel + 1, d => if d.digits % 10 = 0 then strip fuel ⟨d.digits / 10, d.exponent + 1⟩ else d

/-- The shortest decimal that rounds to `mantissa * 2 ^ exponent`, where the mantissa is positive.
Seventeen digits always suffice. -/
def shortest (tie : Tie) (mantissa : Nat) (exponent : Int) : Scientific :=
  let i := RoundingInterval.of mantissa exponent
  let leading := leadingExponent i.value i.den
  match (List.range 17).findSome? fun (extra : Nat) => i.onGrid? tie (leading - extra) with
  | some d => d.strip 17
  | none => ⟨0, 0⟩

end DialogueScript.Decimal
