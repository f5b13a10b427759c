import DialogueScript.Command.Basic

set_option autoImplicit false

/-!
# Hosts

The outside world as a script sees it: something that shows commands and is asked for answers. A
host is described by its state and by what the two requests do to it, so that a run is a function
of the state it starts from.

## Main definitions

* `DialogueScript.Host` — what a host can do.
* `DialogueScript.BufferHost` — a host that records commands and gives prepared answers.
-/

namespace DialogueScript

/-- A host with states in `σ`. -/
class Host (σ : Type) where
  /-- Show a command. -/
  execute : Command → σ → σ
  /-- Ask for an answer; there is none when the input has ended. -/
  readAnswer : σ → Option String × σ

/-- A host in memory. -/
structure BufferHost where
  /-- The commands received, oldest first. -/
  commands : List Command
  /-- The answers not yet given, next first. -/
  answers : List String
  deriving DecidableEq, Repr

namespace BufferHost

/-- A host with some prepared answers. -/
def withAnswers (answers : List String) : BufferHost :=
  ⟨[], answers⟩

/-- Prepare one more answer. -/
def pushAnswer (answer : String) (host : BufferHost) : BufferHost :=
  { host with answers := host.answers ++ [answer] }

/-- The host with the record of commands emptied. -/
def clearCommands (host : BufferHost) : BufferHost :=
  { host with commands := [] }

/-- The console lines of the commands received. -/
def lines (host : BufferHost) : List String :=
  host.commands.map Command.shown

/-- Commands are recorded, and answers are given in the order in which they were prepared. -/
instance : Host BufferHost where
  execute command host := { host with commands := host.commands ++ [command] }
  readAnswer host :=
    match host.answers with
    | [] => (none, host)
    | answer :: later => (some answer, { host with answers := later })

end BufferHost

end DialogueScript
