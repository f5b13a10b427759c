import DialogueScript.Decimal.Layout
import DialogueScript.Json.Basic

set_option autoImplicit false

/-!
# Writing JSON

Values are written compactly, on one line without blanks, or indented, one item or field to a
line with two more blanks for each level. Empty arrays and objects take no extra line either way.

## Main definitions

* `DialogueScript.Json.numberLayout` — how floating-point numbers are laid out.
* `DialogueScript.Json.compact` — writing on one line.
* `DialogueScript.Json.indented` — writing with one item to a line.
-/

namespace DialogueScript.Json

/-! ## Scalars -/

/-- Numbers are plain from `1e-5` up to but without `1e16`; a positive exponent has its sign, and
a tie goes to the even digit. -/
def numberLayout : Decimal.Layout :=
  ⟨-5, 15, true, .even⟩

/-- A hexadecimal digit. -/
def hexDigit (n : Nat) : Char :=
  if n < 10 then Char.ofNat ('0'.toNat + n) else Char.ofNat ('a'.toNat + (n - 10))

/-- How a character is written in a string: quotes, backslashes and control characters are
escaped, those with a letter of their own by that letter. -/
def escape (c : Char) : List Char :=
  match c with
  | '"' => ['\\', '"']
  | '\\' => ['\\', '\\']
  | '\x08' => ['\\', 'b']
  | '\x0c' => ['\\', 'f']
  | '\n' => ['\\', 'n']
  | '\r' => ['\\', 'r']
  | '\t' => ['\\', 't']
  | c =>
    if c < ' ' then ['\\', 'u', '0', '0', hexDigit (c.toNat / 16), hexDigit (c.toNat % 16)]
    else [c]

/-- A string in quotes. -/
def quote (text : String) : String :=
  "\"" ++ String.ofList (text.toList.flatMap escape) ++ "\""

/-- The text of a scalar. -/
def scalarText : Json → String
  | null => "null"
  | bool true => "true"
  | bool false => "false"
  | int n => String.ofList (Text.showInt n)
  | float x => numberLayout.write x
  | string text => quote text
  | array _ => "[]"
  | object _ => "\x7b\x7d"

/-! ## One line -/

mutual

/-- A value on one line. -/
def compact : Json → String
  | array items => "[" ++ ",".intercalate (compactItems items) ++ "]"
  | object fields => "\x7b" ++ ",".intercalate (compactFields fields) ++ "\x7d"
  | json => json.scalarText

/-- The items of an array, each on one line. -/
def compactItems : List Json → List String
  | [] => []
  | json :: later => json.compact :: compactItems later

/-- The fields of an object, each on one line. -/
def compactFields : List (String × Json) → List String
  | [] => []
  | (name, json) :: later => (quote name ++ ":" ++ json.compact) :: compactFields later

end

/-! ## Indented -/

/-- A new line with two blanks for each level. -/
def newLine (level : Nat) : String :=
  "\n" ++ String.ofList (List.replicate (2 * level) ' ')

/-- Items between two brackets, each on a line of its own. -/
def layItems (opening closing : String) (level : Nat) (items : List String) : String :=
  if items.isEmpty then opening ++ closing
  else opening ++ newLine (level + 1) ++ ("," ++ newLine (level + 1)).intercalate items ++
    newLine level ++ closing

mutual

/-- A value with one item to a line, its brackets standing on the given level. -/
def indentedAt (level : Nat) : Json → String
  | array items => layItems "[" "]" level (indentedItems (level + 1) items)
  | object fields => layItems "\x7b" "\x7d" level (indentedFields (level + 1) fields)
  | json => json.scalarText

/-- The items of an array. -/
def indentedItems (level : Nat) : List Json → List String
  | [] => []
  | json :: later => json.indentedAt level :: indentedItems level later

/-- The fields of an object. -/
def indentedFields (level : Nat) : List (String × Json) → List String
  | [] => []
  | (name, json) :: later =>
    (quote name ++ ": " ++ json.indentedAt level) :: indentedFields level later

end

/-- A value with one item to a line. -/
def indented (json : Json) : String :=
  json.indentedAt 0

end DialogueScript.Json
