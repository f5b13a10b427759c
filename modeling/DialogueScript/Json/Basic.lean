import DialogueScript.Decimal.Binary

set_option autoImplicit false

/-!
# JSON values

The data format of configuration files and of dumped statements. Integers are kept apart from
other numbers, and the fields of an object keep their order.

Sum types are written in tagged form: a constructor without arguments is the string of its tag,
and one with arguments is an object with that tag as its only field.

## Main definitions

* `DialogueScript.Json` — values.
* `DialogueScript.Json.field?` — the value of a field.
* `DialogueScript.Json.tagged`, `DialogueScript.Json.variant?` — writing and reading tagged forms.
* `DialogueScript.Json.depth` — how deep a value is nested.
-/

namespace DialogueScript

/-- A JSON value. -/
inductive Json
  /-- The value `null`. -/
  | null
  /-- A Boolean. -/
  | bool (b : Bool)
  /-- A number that is written without point and exponent. -/
  | int (n : Int)
  /-- Any other number. -/
  | float (x : Float)
  /-- A text. -/
  | string (text : String)
  /-- A list of values. -/
  | array (items : List Json)
  /-- A list of named values. -/
  | object (fields : List (String × Json))
  deriving BEq

namespace Json

/-! ## Fields -/

/-- The field of the given name, if there is one. -/
def findField? (name : String) : List (String × Json) → Option Json
  | [] => none
  | (key, value) :: later => if key = name then some value else findField? name later

/-- The value of a field of an object. -/
def field? (json : Json) (name : String) : Option Json :=
  match json with
  | object fields => findField? name fields
  | _ => none

/-- Give a field a value: one that is there already keeps its place. -/
def putField (name : String) (value : Json) : List (String × Json) → List (String × Json)
  | [] => [(name, value)]
  | (key, old) :: later =>
    if key = name then (key, value) :: later else (key, old) :: putField name value later

/-! ## Scalars -/

/-- The text of a string. -/
def string? : Json → Option String
  | string text => some text
  | _ => none

/-- The value of a Boolean. -/
def bool? : Json → Option Bool
  | bool b => some b
  | _ => none

/-- A number written without point and exponent. -/
def int? : Json → Option Int
  | int n => some n
  | _ => none

/-- A number written without point, exponent and minus sign. -/
def nat? : Json → Option Nat
  | int (.ofNat n) => some n
  | _ => none

/-- The items of an array. -/
def array? : Json → Option (List Json)
  | array items => some items
  | _ => none

/-- The texts of an array of strings. -/
def strings? (json : Json) : Option (List String) :=
  json.array?.bind fun items => items.mapM string?

/-- An array of strings. -/
def ofStrings (texts : List String) : Json :=
  array (texts.map string)

/-- A natural number. -/
def ofNat (n : Nat) : Json :=
  int (Int.ofNat n)

/-- A value, or `null` if there is none. -/
def ofOption {α : Type} (encode : α → Json) : Option α → Json
  | none => null
  | some a => encode a

/-! ## Tagged forms -/

/-- A constructor with arguments. -/
def tagged (tag : String) (body : Json) : Json :=
  object [(tag, body)]

/-- The tag of a constructor and what stands under it. A constructor without arguments may also
be written as a field with the value `null`. -/
def variant? : Json → Option (String × Json)
  | string tag => some (tag, null)
  | object [(tag, body)] => some (tag, body)
  | _ => none

/-- The form is the object form, which constructors with arguments need. -/
def isObject : Json → Bool
  | object _ => true
  | _ => false

/-! ## Depth -/

mutual

/-- How many values lie inside each other, the innermost and the outermost included. -/
def depth : Json → Nat
  | array items => depthOfItems items + 1
  | object fields => depthOfFields fields + 1
  | _ => 1

/-- The greatest depth among some values. -/
def depthOfItems : List Json → Nat
  | [] => 0
  | json :: later => max json.depth (depthOfItems later)

/-- The greatest depth among the values of some fields. -/
def depthOfFields : List (String × Json) → Nat
  | [] => 0
  | (_, json) :: later => max json.depth (depthOfFields later)

end

end Json

end DialogueScript
