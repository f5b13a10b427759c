import DialogueScript.Console.Sink
import DialogueScript.Host

set_option autoImplicit false

/-!
# Consoles

A console is a host with lines of input, an output and a second output for diagnostics. Each
command is shown as a line; before an answer is read, a prompt is written.

Input is taken line by line: a line is everything up to and including the next line feed, or up to
the end of the input. A line that is not UTF-8 is taken and cannot be read.

## Main definitions

* `DialogueScript.Console` — the state of a console.
* `DialogueScript.ConsoleM` — actions on a console.
* `DialogueScript.Console.readLine`, `DialogueScript.Console.title`,
  `DialogueScript.Console.message` — the actions.
-/

namespace DialogueScript

/-- What can go wrong with a console. -/
inductive ConsoleFault
  /-- A sink has reached its limit. -/
  | sinkFull
  /-- A line of input is not UTF-8. -/
  | invalidText
  deriving DecidableEq, Repr

/-- The wording of a console fault. -/
def ConsoleFault.message : ConsoleFault → String
  | .sinkFull => "sink full"
  | .invalidText => "stream did not contain valid UTF-8"

/-- The state of a console. -/
structure Console where
  /-- The input not yet taken. -/
  input : List UInt8
  /-- Where commands, prompts and messages go. -/
  output : Sink
  /-- Where reports go. -/
  diagnostics : Sink
  /-- How much had been written to the two sinks when a line was asked for behind the end of the
  input for the first time. Up to there a run with more input behind this one is the same. -/
  starved : Option (Nat × Nat)

/-- An action on a console, which may fail. What was done before a failure stays done. -/
abbrev ConsoleM (α : Type) : Type :=
  ExceptT ConsoleFault (StateM Console) α

namespace Console

/-- A console with the given input and limits. -/
def new (input : List UInt8) (outputLimit diagnosticsLimit : Option Nat) : Console :=
  ⟨input, Sink.new outputLimit, Sink.new diagnosticsLimit, none⟩

/-! ## Writing -/

/-- Write to the output. -/
def write (text : String) : ConsoleM Unit := do
  let console ← get
  let (fits, sink) := console.output.write text
  set { console with output := sink }
  unless fits do throw .sinkFull

/-- Write a line to the diagnostics. -/
def complain (text : String) : ConsoleM Unit := do
  let console ← get
  let (fits, sink) := console.diagnostics.write (text ++ "\n")
  set { console with diagnostics := sink }
  unless fits do throw .sinkFull

/-- Write a line. -/
def message (text : String) : ConsoleM Unit :=
  write (text ++ "\n")

/-- Write an empty line. -/
def newLine : ConsoleM Unit :=
  write "\n"

/-- Write a title between two empty lines. -/
def title (text : String) : ConsoleM Unit := do
  newLine
  message ("=== " ++ text ++ " ===")
  newLine

/-! ## Reading -/

/-- The bytes up to and including the first line feed, and the bytes behind it. -/
def takeSegment : List UInt8 → List UInt8 × List UInt8
  | [] => ([], [])
  | b :: bs =>
    if b = 10 then ([b], bs)
    else
      let (segment, rest) := takeSegment bs
      (b :: segment, rest)

/-- A line without the line feeds and carriage returns at its end. -/
def stripLineEnd (line : String) : String :=
  String.ofList (line.toList.reverse.dropWhile fun c => c == '\r' || c == '\n').reverse

/-- The text of a segment of the input. -/
def segmentText? (segment : List UInt8) : Option String :=
  (String.fromUTF8? ⟨segment.toArray⟩).map stripLineEnd

/-- Note that the input did not suffice, the first time it happens. -/
def starve (console : Console) : Console :=
  match console.starved with
  | some _ => console
  | none =>
    { console with
      starved := some (console.output.written.size, console.diagnostics.written.size) }

/-- Take a line of input; there is none at the end of the input. -/
def readLine : ConsoleM (Option String) := do
  let console ← get
  if console.input.isEmpty then
    set console.starve
    return none
  let (segment, rest) := takeSegment console.input
  set { console with input := rest }
  match segmentText? segment with
  | some line => return some line
  | none => throw .invalidText

/-- What is written before an answer is read. -/
def answerPrompt : String :=
  "Enter the answer id: "

/-- Write the prompt and take a line. -/
def promptLine : ConsoleM (Option String) := do
  write answerPrompt
  readLine

/-! ## As a host -/

/-- A console shows commands as lines and ignores that a sink is full; an answer that cannot be
asked for or read is none. -/
instance : Host Console where
  execute command console := (message command.shown console).2
  readAnswer console :=
    match promptLine console with
    | (.ok line, next) => (line, next)
    | (.error _, next) => (none, next)

end Console

end DialogueScript
