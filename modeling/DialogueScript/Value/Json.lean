import DialogueScript.Json.Basic
import DialogueScript.Value.Basic

set_option autoImplicit false

/-!
# Values as JSON

## Main definitions

* `DialogueScript.Value.toJson`, `DialogueScript.Value.ofJson?` — a value in tagged form, numbers
  as JSON numbers. Where a double is expected, an integer is accepted, but not the other way round.
-/

namespace DialogueScript.Value

/-- Write a value. -/
def toJson : Value → Json
  | integer n => .tagged "Integer" (.int n.toInt)
  | float x => .tagged "Float" (.float x)
  | str text => .tagged "Str" (.string text)
  | bool b => .tagged "Bool" (.bool b)
  | nil => .string "Nil"
  | noValue => .string "NoValue"

/-- A JSON number that fits in a 64-bit word, signed or not, as a double. -/
def floatOfInt (n : Int) : Float :=
  match n with
  | .ofNat m => m.toUInt64.toFloat
  | .negSucc _ => (Int64.ofInt n).toFloat

/-- Read a value. -/
def ofJson? (json : Json) : Option Value :=
  match json.variant? with
  | some ("Integer", .int n) =>
    if Text.fitsInt64 n then some (integer (Int64.ofInt n)) else none
  | some ("Float", .float x) => some (float x)
  | some ("Float", .int n) => some (float (floatOfInt n))
  | some ("Str", .string text) => some (str text)
  | some ("Bool", .bool b) => some (bool b)
  | some ("Nil", .null) => some nil
  | some ("NoValue", .null) => some noValue
  | _ => none

end DialogueScript.Value
