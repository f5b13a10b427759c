import DialogueScript.Console.Basic
import DialogueScript.Console.CommandLine
import DialogueScript.Interpreter.Run

set_option autoImplicit false

/-!
# Sessions

A session runs a script once and then calls functions of it: first those that were named in
advance, then those that the user asks for, line by line, until the exit command or the end of the
input. After each call the reports it left are written to the diagnostics, each on a line. A
script that asks to exit ends only the call it is in.

## Main definitions

* `DialogueScript.SessionOptions` — what a session does besides running its script.
* `DialogueScript.SessionM` — the steps of a session.
* `DialogueScript.Session.run` — a whole session.
-/

namespace DialogueScript

/-- What a session does besides running its script. -/
structure SessionOptions where
  /-- What the user types to end the session. -/
  exitCommand : String
  /-- A function to be called first. -/
  entryFunction : Option String
  /-- Functions to be called after it, in order. -/
  calls : List String
  /-- The user is asked for functions to call. -/
  interactive : Bool

/-- Why a session ends early. -/
inductive Stop
  /-- The console failed. -/
  | fault (fault : ConsoleFault)
  /-- The fuel was used up. -/
  | outOfFuel

/-- A step of a session. -/
abbrev SessionM (α : Type) : Type :=
  ExceptT Stop (StateM (Interpreter Console)) α

namespace Session

/-- Use the console. -/
def onConsole {α : Type} (action : ConsoleM α) : SessionM α := do
  let i ← get
  let (result, console) := action i.host
  set { i with host := console }
  match result with
  | .ok a => return a
  | .error fault => throw (.fault fault)

/-- Take the reports away and write each on a line of the diagnostics. -/
def flushErrors : SessionM Unit := do
  let i ← get
  set i.clearErrors
  i.errors.forM fun error => onConsole (Console.complain error.message)

/-- Run something that the outside world asked for, write its reports, and say so if the script
asked to exit. -/
def perform {α : Type} (computation : Eval Console α) : SessionM Unit := do
  let i ← get
  let (outcome, j) := computation i
  set j
  match outcome with
  | .outOfFuel => throw .outOfFuel
  | .done _ => flushErrors
  | .exitRequested =>
    flushErrors
    onConsole Console.newLine
    onConsole (Console.message "Function ended")

/-- Call a function in the root. -/
def invoke (fuel : Nat) (name : String) (args : List Value) : SessionM Unit :=
  perform (callFunction fuel Scopes.rootId name args)

/-- Ask the user for functions to call, at most `rounds` times. -/
def askWithin (fuel : Nat) (exitCommand : String) : (rounds : Nat) → SessionM Unit
  | 0 => throw .outOfFuel
  | rounds + 1 => do
    onConsole (Console.message
      ("Enter a function to execute or enter '" ++ exitCommand ++ "': "))
    match ← onConsole Console.readLine with
    | none => return ()
    | some line =>
      match CommandLine.read exitCommand line with
      | .exit => onConsole (Console.title "EXITING...")
      | .empty => askWithin fuel exitCommand rounds
      | .call name args =>
        onConsole Console.newLine
        invoke fuel name args
        askWithin fuel exitCommand rounds

/-- Ask the user for functions to call until the exit command or the end of the input. Each round
takes at least a byte of the input. -/
def ask (fuel : Nat) (exitCommand : String) : SessionM Unit := do
  onConsole (Console.title "BEGINNING OF THE GAME")
  let i ← get
  askWithin fuel exitCommand (i.host.input.length + 1)

/-- A whole session. -/
def run (fuel : Nat) (options : SessionOptions) (script : Script) : SessionM Unit := do
  onConsole (Console.title "LAUNCHING THE INTERPRETER...")
  perform (runScript fuel script)
  options.entryFunction.forM fun name => invoke fuel name []
  options.calls.forM fun name => invoke fuel name []
  if options.interactive then ask fuel options.exitCommand

end Session

/-- The lines that report what was wrong with a source. -/
def ParseError.reportText (errors : List ParseError) : String :=
  String.join (errors.map fun error => error.message ++ "\n")

end DialogueScript
