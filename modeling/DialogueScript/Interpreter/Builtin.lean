import DialogueScript.Interpreter.Basic
import DialogueScript.Text.Blank

set_option autoImplicit false

/-!
# Built-in functions

A fixed table of functions that every script may call. Most of them show a command; one asks for
an answer, and one advances the phase of the program. Only the function that asks has a result;
all others leave the mark of a call without one.

## Main definitions

* `DialogueScript.Builtin` — the functions.
* `DialogueScript.Builtin.ofName?` — finding one by name.
* `DialogueScript.Builtin.run` — what a call does.
-/

namespace DialogueScript

/-- The built-in functions. -/
inductive Builtin
  /-- Play the sound of a dialogue. -/
  | puppetSpeak
  /-- Show a comment. -/
  | message
  /-- Hide all answers. -/
  | puppetClear
  /-- Offer an answer. -/
  | puppetBevel
  /-- Ask for an answer. -/
  | puppetEvent
  /-- Play a film. -/
  | spotMovie
  /-- Start a track. -/
  | openTrackFile
  /-- Stop a track. -/
  | closeTrackFile
  /-- Wait. -/
  | delay
  /-- Advance the phase of the program. -/
  | advancePhase
  deriving DecidableEq, Repr

namespace Builtin

/-- All built-in functions. -/
def all : List Builtin :=
  [puppetSpeak, message, puppetClear, puppetBevel, puppetEvent, spotMovie, openTrackFile,
    closeTrackFile, delay, advancePhase]

/-- The name by which a script calls the function. -/
def name : Builtin → String
  | puppetSpeak => "puppetspeak"
  | message => "message"
  | puppetClear => "puppetclear"
  | puppetBevel => "puppetbevel"
  | puppetEvent => "puppetevent"
  | spotMovie => "spotmovie"
  | openTrackFile => "opentrackfile"
  | closeTrackFile => "closetrackfile"
  | delay => "delay"
  | advancePhase => "advancephase"

/-- The built-in function with the given name. -/
def ofName? (name : String) : Option Builtin :=
  all.find? fun builtin => builtin.name == name

/-- A built-in function has the given name. -/
def isName (name : String) : Bool :=
  (ofName? name).isSome

/-! ## Effects -/

/-- The text of an argument; a missing one counts as `nil`. -/
def argText (args : List Value) (index : Nat) : String :=
  (args[index]?.getD .nil).shown

/-- The command that a call shows, if that is all it does. -/
def command? (args : List Value) : Builtin → Option Command
  | puppetSpeak => some (.playDialogSound (argText args 0))
  | message => some (.designerComment (argText args 0))
  | puppetClear => some .clearAnswers
  | puppetBevel => some (.addAnswer (argText args 0) (argText args 1))
  | spotMovie => some (.playMovie (argText args 0))
  | openTrackFile => some (.startTrack (argText args 0))
  | closeTrackFile => some (.stopTrack (argText args 0))
  | delay => some (.delay (argText args 0))
  | puppetEvent => none
  | advancePhase => none

variable {σ : Type}

/-- Ask for an answer. It has to be an integer, with any blanks around it; anything else is
reported and counts as `nil`. -/
def askAnswer [Host σ] : Eval σ Value := do
  match ← Eval.readAnswer with
  | none =>
    Eval.report .noAnswer
    return .nil
  | some line =>
    let input := Text.trim line.toList
    match Text.readInt64? input with
    | some n => return .integer n
    | none =>
      Eval.report (.invalidAnswer (String.ofList input))
      return .nil

/-- The name of the variable that counts the phases. -/
def phaseName : String :=
  "phase"

/-- The phase after the given one: without a phase the count begins, integers wrap around at 64
bits, and what is no number has no successor. -/
def nextPhase? : Option Value → Except Value Value
  | none => .ok (.integer 1)
  | some .nil => .ok (.integer 1)
  | some (.integer n) => .ok (.integer (n + 1))
  | some (.float x) => .ok (.float (x + 1))
  | some other => .error other

/-- Advance the phase of the program. -/
def stepPhase : Eval σ Unit := do
  match nextPhase? (← Eval.look fun i => i.scopes.global? phaseName) with
  | .ok next => Eval.modifyScopes fun scopes => scopes.setGlobal phaseName next
  | .error actual => Eval.report (.phaseNotNumeric actual)

/-- What a call of a built-in function does, and its result. -/
def run [Host σ] (builtin : Builtin) (args : List Value) : Eval σ Value :=
  match builtin with
  | puppetEvent => askAnswer
  | advancePhase => do
    stepPhase
    return .noValue
  | _ => do
    (builtin.command? args).forM Eval.execute
    return .noValue

end Builtin

end DialogueScript
