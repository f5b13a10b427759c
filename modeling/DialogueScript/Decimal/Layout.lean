import DialogueScript.Decimal.Shortest

set_option autoImplicit false

/-!
# The text of a double

A double is written with its shortest digits, plainly with at least one decimal place where its
size is ordinary, and with an exponent otherwise. Where plain writing ends, whether a positive
exponent gets a sign, and which of two equally near decimals is taken, is a choice of the place
that writes it.

## Main definitions

* `DialogueScript.Decimal.Layout` — the choices.
* `DialogueScript.Decimal.Layout.write` — the text of a double.
-/

namespace DialogueScript.Decimal

/-- How doubles are laid out. -/
structure Layout where
  /-- The least power of ten of a leading digit that is written plainly. -/
  lowest : Int
  /-- The greatest power of ten of a leading digit that is written plainly. -/
  highest : Int
  /-- A positive exponent is written with a plus sign. -/
  plusSign : Bool
  /-- Which of two equally near decimals is taken. -/
  tie : Tie

namespace Layout

/-- Digits with a point among, before or behind them, `leading` being the power of ten of the
first one. There is a digit on both sides of the point. -/
def plain (digits : List Char) (leading : Int) : List Char :=
  if leading < 0 then
    ['0', '.'] ++ List.replicate (- leading - 1).toNat '0' ++ digits
  else
    let whole := leading.toNat + 1
    if digits.length ≤ whole then
      digits ++ List.replicate (whole - digits.length) '0' ++ ['.', '0']
    else digits.take whole ++ ['.'] ++ digits.drop whole

/-- One digit in front of the point, the others, if any, behind it, and the exponent. -/
def exponential (layout : Layout) (digits : List Char) (leading : Int) : List Char :=
  let fraction := if digits.length ≤ 1 then [] else '.' :: digits.drop 1
  let sign := if layout.plusSign && decide (0 ≤ leading) then ['+'] else []
  digits.take 1 ++ fraction ++ ['e'] ++ sign ++ Text.showInt leading

/-- The text of a positive decimal. -/
def writeScientific (layout : Layout) (d : Scientific) : List Char :=
  let digits := Text.showNat d.digits
  let leading := d.exponent + digits.length - 1
  if layout.lowest ≤ leading ∧ leading ≤ layout.highest then plain digits leading
  else layout.exponential digits leading

/-- The text of a double. -/
def write (layout : Layout) (x : Float) : String :=
  match decode x with
  | .nan => "NaN"
  | .infinite negative => if negative then "-inf" else "inf"
  | .finite negative mantissa exponent =>
    let body :=
      if mantissa = 0 then ['0', '.', '0']
      else layout.writeScientific (shortest layout.tie mantissa exponent)
    String.ofList (if negative then '-' :: body else body)

end Layout

end DialogueScript.Decimal
