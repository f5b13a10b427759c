import DialogueScript.Decimal.Layout

set_option autoImplicit false

/-!
# Values

What variables hold and functions return: 64-bit integers, doubles, texts, Booleans, the empty
value `nil` that also an unbound variable has, and the mark that a built-in function leaves when
it has nothing to return.

## Main definitions

* `DialogueScript.Value` — values.
* `DialogueScript.Value.isTruthy` — which values count as true.
* `DialogueScript.Value.scriptEq` — the equality of the language.
* `DialogueScript.Value.shown` — the text of a value.
-/

namespace DialogueScript

/-- A value of the language. -/
inductive Value
  /-- A 64-bit integer. -/
  | integer (n : Int64)
  /-- A double. -/
  | float (x : Float)
  /-- A text. -/
  | str (text : String)
  /-- A Boolean. -/
  | bool (b : Bool)
  /-- The empty value. -/
  | nil
  /-- The mark of a call without a result. -/
  | noValue
  deriving BEq, Inhabited

namespace Value

/-- A number as a double. -/
def toFloat? : Value → Option Float
  | integer n => some n.toFloat
  | float x => some x
  | _ => none

/-- The values that count as true: `true`, numbers other than zero, every text, and the mark of a
call without a result. -/
def isTruthy : Value → Bool
  | bool b => b
  | integer n => n != 0
  | float x => x != 0
  | nil => false
  | str _ => true
  | noValue => true

/-- The equality of the language. Values of different sorts differ, also an integer and a double
of the same size, and the mark of a call without a result differs from everything. -/
def scriptEq : Value → Value → Bool
  | nil, nil => true
  | integer a, integer b => a == b
  | float a, float b => a == b
  | str a, str b => a == b
  | bool a, bool b => a == b
  | _, _ => false

/-- Both values are numbers, and the first is greater. -/
def greaterThan (a b : Value) : Bool :=
  match a.toFloat?, b.toFloat? with
  | some x, some y => decide (x > y)
  | _, _ => false

/-- Both values are numbers, and the first is less. -/
def lessThan (a b : Value) : Bool :=
  match a.toFloat?, b.toFloat? with
  | some x, some y => decide (x < y)
  | _, _ => false

/-- The name of the sort of a value. -/
def typeName : Value → String
  | integer _ => "Integer"
  | float _ => "Float"
  | str _ => "Str"
  | bool _ => "Bool"
  | nil => "Nil"
  | noValue => "NoValue"

/-- Doubles are plain from `1e-4` up to but without `1e16`; exponents have no plus sign, and a tie
goes to the greater digit. -/
def floatLayout : Decimal.Layout :=
  ⟨-4, 15, false, .greater⟩

/-- The text of a value. -/
def shown : Value → String
  | integer n => String.ofList (Text.showInt n.toInt)
  | float x => floatLayout.write x
  | str text => text
  | bool b => if b then "true" else "false"
  | nil => "nil"
  | noValue => "<no value>"

end Value

end DialogueScript
