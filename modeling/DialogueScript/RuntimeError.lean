import DialogueScript.Value.Basic

set_option autoImplicit false

/-!
# Faults of a run

A fault of a running script never stops it. It is reported, a neutral value takes the place of
whatever could not be computed, and the run goes on.

## Main definitions

* `DialogueScript.RuntimeError` — the causes.
* `DialogueScript.RuntimeError.message` — a report as shown to the user.
-/

namespace DialogueScript

/-- What can go wrong in a run. -/
inductive RuntimeError
  /-- A function is neither declared nor built in. -/
  | unknownFunction (name : String)
  /-- A number literal denotes no value. -/
  | invalidNumber (text : String)
  /-- An answer is not an integer. -/
  | invalidAnswer (input : String)
  /-- An answer was asked for after the end of the input. -/
  | noAnswer
  /-- The program's phase is not a number. -/
  | phaseNotNumeric (actual : Value)
  /-- Calls lie too deep inside each other. -/
  | callDepthExceeded (name : String) (limit : Nat)

/-- A report as shown to the user. -/
def RuntimeError.message : RuntimeError → String
  | .unknownFunction name => "Unknown function: " ++ name
  | .invalidNumber text => "Invalid number literal: " ++ text
  | .invalidAnswer input => "Invalid answer id: " ++ input
  | .noAnswer => "Invalid answer id: <end of input>"
  | .phaseNotNumeric actual =>
    "Global 'phase' is not a number: " ++ actual.shown ++ " (" ++ actual.typeName ++ ")"
  | .callDepthExceeded name limit =>
    "Call depth limit " ++ Text.natText limit ++ " exceeded while calling '" ++ name ++ "'"

end DialogueScript
