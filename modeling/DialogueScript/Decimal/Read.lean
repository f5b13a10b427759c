import DialogueScript.Decimal.Shortest
import DialogueScript.Text.Ascii

set_option autoImplicit false

/-!
# Reading a double

A double is written as an optional sign and either a word for a value that is no finite number, or
digits with at most one point among them and an optional exponent. It is read as the nearest
double; too large a number gives an infinity and too small a one zero.

## Main definitions

* `DialogueScript.Decimal.ofScientific` — the double nearest to a decimal.
* `DialogueScript.Decimal.read?` — reading a double.
-/

namespace DialogueScript.Decimal

/-- The double nearest to a decimal. Decimals far outside the range of doubles are settled by
their size alone. -/
def ofScientific (d : Scientific) : Float :=
  let size := d.exponent + digitCount d.digits
  if d.digits = 0 then 0
  else if size < -400 then 0
  else if 400 < size then infinity
  else Float.ofScientific d.digits (decide (d.exponent < 0)) d.exponent.natAbs

/-- Read an optional exponent up to the end of the text. -/
def readExponent? : List Char → Option Int
  | [] => some 0
  | c :: cs => if c = 'e' ∨ c = 'E' then Text.readInt? cs else none

/-- Read the digits, the point and the exponent of an unsigned number. -/
def readUnsigned? (cs : List Char) : Option Float :=
  let whole := cs.takeWhile Char.isDigit
  let behind := cs.dropWhile Char.isDigit
  let (fraction, rest) :=
    match behind with
    | '.' :: places => (places.takeWhile Char.isDigit, places.dropWhile Char.isDigit)
    | _ => ([], behind)
  let digits := whole ++ fraction
  if digits.isEmpty then none
  else (readExponent? rest).map fun exponent =>
    ofScientific ⟨Text.natOfDigits digits, exponent - fraction.length⟩

/-- Read a word for a value that is no finite number, in any case. -/
def readSpecial? (cs : List Char) : Option Float :=
  let word := Text.foldCase cs
  if word = "inf".toList ∨ word = "infinity".toList then some infinity
  else if word = "nan".toList then some notANumber
  else none

/-- Read a double without its sign. -/
def readMagnitude? (cs : List Char) : Option Float :=
  match readSpecial? cs with
  | some x => some x
  | none => readUnsigned? cs

/-- Read a double. -/
def read? : List Char → Option Float
  | '-' :: cs => (readMagnitude? cs).map fun x => -x
  | '+' :: cs => readMagnitude? cs
  | cs => readMagnitude? cs

end DialogueScript.Decimal
