import DialogueScript.Text.Ascii
import DialogueScript.Text.Integer

set_option autoImplicit false

/-!
# Levels of logging

How much is logged, from nothing to everything. A level is written as its name, in capital or
small letters, or as its number.

## Main definitions

* `DialogueScript.Log.Level` — the levels.
* `DialogueScript.Log.Level.ofText?` — reading a level.
-/

namespace DialogueScript.Log

/-- How much is logged. -/
inductive Level
  /-- Nothing. -/
  | off
  /-- Errors. -/
  | error
  /-- Warnings too. -/
  | warn
  /-- What happens as well. -/
  | info
  /-- What helps to find a mistake as well. -/
  | debug
  /-- Everything. -/
  | trace
  deriving DecidableEq, Repr

namespace Level

/-- The levels by their numbers. -/
def all : List Level :=
  [.off, .error, .warn, .info, .debug, .trace]

/-- The name of a level. -/
def name : Level → String
  | .off => "off"
  | .error => "error"
  | .warn => "warn"
  | .info => "info"
  | .debug => "debug"
  | .trace => "trace"

/-- Read a number. It may have a plus sign and any number of leading zeros. -/
def readNumber? : List Char → Option Nat
  | '+' :: digits => Text.readNat? digits
  | digits => Text.readNat? digits

/-- Read a level. -/
def ofText? (text : List Char) : Option Level :=
  match readNumber? text with
  | some number => all[number]?
  | none => all.find? fun level => Text.sameFolded (String.ofList text) level.name

example : ofText? "Warn".toList = some .warn ∧ ofText? "+005".toList = some .trace := by
  decide +kernel

end Level

end DialogueScript.Log
