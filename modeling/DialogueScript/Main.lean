import DialogueScript.Program.Launch

set_option autoImplicit false

/-!
# The console program on a terminal

The outermost layer: files are read, the standard streams are connected, and everything else is
left to `DialogueScript.Launch`.

A session is a function of its whole input. To run it while the user is still typing, it is run
on the input typed so far; what it writes up to the point where it asks for more is final and is
shown, and it is run again with one more line. In the same way a session that uses up its fuel is
run again with twice as much.
-/

namespace DialogueScript.Terminal

/-- Read a file. -/
def readFile (path : String) : IO FileRead := do
  try
    let content ← IO.FS.readBinFile path
    return .ok content
  catch error =>
    match error with
    | .noFileOrDirectory _ _ _ => return .error .notFound
    | .inappropriateType _ _ _ => return .error .isADirectory
    | other => return .error (.other (toString other))

/-- Read a line with its end, byte by byte; at the end of the input it is empty. -/
partial def readSegment (stream : IO.FS.Stream) (read : List UInt8) : IO (List UInt8) := do
  let bytes ← stream.read 1
  match bytes.data.toList with
  | [] => return read.reverse
  | b :: _ => if b = 10 then return (b :: read).reverse else readSegment stream (b :: read)

/-- How much of the two outputs has been shown. -/
structure Shown where
  /-- Bytes of the output. -/
  output : Nat
  /-- Bytes of the diagnostics. -/
  diagnostics : Nat

/-- Show the two outputs up to the given sizes. -/
def catchUp (console : Console) (shown upTo : Shown) : IO Shown := do
  let stdout ← IO.getStdout
  let stderr ← IO.getStderr
  stdout.write (console.output.written.extract shown.output upTo.output)
  stdout.flush
  stderr.write (console.diagnostics.written.extract shown.diagnostics upTo.diagnostics)
  stderr.flush
  return upTo

/-- Run a session on the input read so far, and on more of it until the session ends. -/
partial def converse (ready : Launch.Ready) (fuel : Nat) (input : List UInt8) (ended : Bool)
    (shown : Shown) : IO UInt32 := do
  let (result, last) := Launch.session fuel ready input
  let console := last.host
  let everything : Shown := ⟨console.output.written.size, console.diagnostics.written.size⟩
  match console.starved, ended with
  | some (output, diagnostics), false =>
    let shown ← catchUp console shown ⟨output, diagnostics⟩
    let more ← readSegment (← IO.getStdin) []
    converse ready fuel (input ++ more) more.isEmpty shown
  | _, _ =>
    let shown ← catchUp console shown everything
    match result with
    | .error .outOfFuel => converse ready (2 * fuel) input ended shown
    | _ =>
      match Launch.sessionFailure result with
      | none => return 0
      | some line =>
        (← IO.getStderr).putStr line
        return 1

/-- Run the program. What is logged is for the arguments and the configuration to say. -/
def launch (args : Arguments) : IO UInt32 := do
  let configFile ← readFile args.config
  let scriptFile ← readFile args.script
  match Launch.prepare args none configFile scriptFile with
  | .error failure =>
    (← IO.getStderr).putStr (Launch.fatalLine failure.message)
    return 1
  | .ok ready =>
    (← IO.getStdout).putStr ready.output
    (← IO.getStderr).putStr ready.errors
    converse ready 1048576 [] false ⟨0, 0⟩

end DialogueScript.Terminal

/-- The console program. -/
def main (args : List String) : IO UInt32 := do
  match DialogueScript.Arguments.parse args with
  | .error refusal =>
    let result := DialogueScript.Launch.refuse refusal
    (← IO.getStdout).putStr result.output
    (← IO.getStderr).putStr result.errors
    return result.exitCode.toUInt32
  | .ok arguments => DialogueScript.Terminal.launch arguments
