set_option autoImplicit false

/-!
# Floating-point numbers as integers

A finite double is `mantissa * 2 ^ exponent` up to its sign. Everything that is said about the text
of a double is said about these two integers, in exact arithmetic.

## Main definitions

* `DialogueScript.Decimal.Decoded` — the parts of a double.
* `DialogueScript.Decimal.decode` — taking a double apart.
* `DialogueScript.Decimal.RoundingInterval` — the reals that round to a double.
-/

namespace DialogueScript.Decimal

/-- The parts of a double. -/
inductive Decoded
  /-- Not a number. -/
  | nan
  /-- One of the two infinities. -/
  | infinite (negative : Bool)
  /-- The number `mantissa * 2 ^ exponent`, or its opposite. -/
  | finite (negative : Bool) (mantissa : Nat) (exponent : Int)

/-- Take a double apart: one sign bit, eleven bits of exponent, fifty-two bits of fraction. -/
def decode (x : Float) : Decoded :=
  let bits := x.toBits.toNat
  let negative := bits.testBit 63
  let exponent : Nat := (bits >>> 52) % 2048
  let fraction := bits % (1 <<< 52)
  if exponent = 2047 then
    if fraction = 0 then .infinite negative else .nan
  else if exponent = 0 then .finite negative fraction (-1074)
  else .finite negative ((1 <<< 52) + fraction) (Int.ofNat exponent - 1075)

/-- The positive infinity. -/
def infinity : Float :=
  Float.ofBits 0x7FF0000000000000

/-- A value that is no number. -/
def notANumber : Float :=
  Float.ofBits 0x7FF8000000000000

/-- The reals that round to a positive double, over a common denominator: from `low` to `high`,
the ends belonging to it if `closed` holds. -/
structure RoundingInterval where
  /-- Numerator of the lower end. -/
  low : Nat
  /-- Numerator of the double itself. -/
  value : Nat
  /-- Numerator of the upper end. -/
  high : Nat
  /-- The denominator of all three. -/
  den : Nat
  /-- The ends round to the double as well. -/
  closed : Bool

/-- The interval of `mantissa * 2 ^ exponent`. Its ends lie halfway to the neighbours; below the
least mantissa of a binade the neighbour is only half as far. The ends round to even. -/
def RoundingInterval.of (mantissa : Nat) (exponent : Int) : RoundingInterval :=
  let unit := 1 <<< (exponent - 2).toNat
  let below := if mantissa = 1 <<< 52 ∧ exponent ≠ -1074 then 1 else 2
  { low := (4 * mantissa - below) * unit
    value := 4 * mantissa * unit
    high := (4 * mantissa + 2) * unit
    den := 1 <<< (2 - exponent).toNat
    closed := mantissa % 2 = 0 }

end DialogueScript.Decimal
