set_option autoImplicit false

/-!
# Integers as text

Decimal integers as users and scripts write them: an optional sign and at least one ASCII digit,
with any number of leading zeros. Values are 64-bit signed integers, and a text that denotes
anything outside their range is not read at all.

## Main definitions

* `DialogueScript.Text.natOfDigits` — the number a run of digits denotes.
* `DialogueScript.Text.readInt?` — reading a signed decimal integer of any size.
* `DialogueScript.Text.readInt64?` — reading one that fits in 64 bits.
* `DialogueScript.Text.showInt` — the shortest spelling of an integer.
-/

namespace DialogueScript.Text

/-- The value of a decimal digit. -/
def digitValue (c : Char) : Nat :=
  c.toNat - '0'.toNat

/-- The number that a run of decimal digits denotes. -/
def natOfDigits (digits : List Char) : Nat :=
  digits.foldl (fun n c => 10 * n + digitValue c) 0

/-- Read at least one digit and nothing else. -/
def readNat? (cs : List Char) : Option Nat :=
  if !cs.isEmpty && cs.all Char.isDigit then some (natOfDigits cs) else none

/-- Read an optional sign and then at least one digit. -/
def readInt? : List Char → Option Int
  | '+' :: cs => (readNat? cs).map Int.ofNat
  | '-' :: cs => (readNat? cs).map fun n => - Int.ofNat n
  | cs => (readNat? cs).map Int.ofNat

/-- The integers that a 64-bit signed word holds. -/
def fitsInt64 (n : Int) : Bool :=
  decide (Int64.minValue.toInt ≤ n) && decide (n ≤ Int64.maxValue.toInt)

/-- Read a signed decimal integer that fits in 64 bits. -/
def readInt64? (cs : List Char) : Option Int64 :=
  match readInt? cs with
  | some n => if fitsInt64 n then some (Int64.ofInt n) else none
  | none => none

/-- The decimal digits of a natural number, without leading zeros. -/
def showNat (n : Nat) : List Char :=
  Nat.toDigits 10 n

/-- The shortest spelling of an integer: a minus sign if it is negative, then its digits. -/
def showInt (n : Int) : List Char :=
  if n < 0 then '-' :: showNat n.natAbs else showNat n.natAbs

/-- A natural number as a string of decimal digits. -/
def natText (n : Nat) : String :=
  String.ofList (showNat n)

end DialogueScript.Text
