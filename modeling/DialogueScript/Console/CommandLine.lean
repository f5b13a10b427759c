import DialogueScript.Text.Ascii
import DialogueScript.Text.Blank
import DialogueScript.Value.Basic

set_option autoImplicit false

/-!
# Command lines

What a user types at the prompt of a console: the word that ends the session, or the name of a
function and its arguments, separated by blanks.

## Main definitions

* `DialogueScript.argumentValue` — the value of a word.
* `DialogueScript.CommandLine` — what a line asks for.
* `DialogueScript.CommandLine.read` — reading a line.
-/

namespace DialogueScript

/-- The value of a word: an integer if it denotes one, a Boolean if it is `true` or `false` in any
case, and otherwise the word itself. -/
def argumentValue (word : String) : Value :=
  match Text.readInt64? word.toList with
  | some n => .integer n
  | none =>
    if Text.sameFolded word "true" then .bool true
    else if Text.sameFolded word "false" then .bool false
    else .str word

/-- What a line asks for. -/
inductive CommandLine
  /-- End the session. -/
  | exit
  /-- Nothing. -/
  | empty
  /-- Call a function. -/
  | call (name : String) (args : List Value)

/-- Read a line. The exit command is compared as a whole, without the blanks around it and in any
case. -/
def CommandLine.read (exitCommand line : String) : CommandLine :=
  let trimmed := Text.trim line.toList
  if Text.foldCase trimmed = Text.foldCase (Text.trim exitCommand.toList) then .exit
  else
    match Text.words trimmed with
    | [] => .empty
    | name :: args =>
      .call (String.ofList name) (args.map fun word => argumentValue (String.ofList word))

end DialogueScript
