import DialogueScript.Config.Json
import DialogueScript.Console.Session
import DialogueScript.Log.Filter
import DialogueScript.Program.Arguments
import DialogueScript.Script.Json

set_option autoImplicit false

/-!
# The console program

The program reads its configuration and its script, writes out what it was asked to, reports what
was wrong with the source, and runs a session. It works on the contents of the two files and on
its standard input; reading them is left to the outside.

## Main definitions

* `DialogueScript.ProgramResult` — what a program leaves behind.
* `DialogueScript.Launch.run` — the whole program.
-/

namespace DialogueScript

/-- What a program leaves behind. -/
structure ProgramResult where
  /-- The exit code. -/
  exitCode : Nat
  /-- What was written to the standard output. -/
  output : String
  /-- What was written to the standard error output. -/
  errors : String
  deriving DecidableEq, Repr

namespace Launch

/-- The line for an error that ends the program. -/
def fatalLine (message : String) : String :=
  "titanic error: " ++ message ++ "\n"

/-- Why the program ends before its session. -/
inductive Failure
  /-- The configuration cannot be used. -/
  | config (path : String) (error : ConfigError)
  /-- The filter for the log cannot be used. -/
  | log (filter : String) (error : Log.FilterError)
  /-- The script cannot be read. -/
  | script (path : String) (error : FileError)

/-- The wording of a failure: what could not be done, and why, each cause behind the last. A file
that cannot be read is a cause with a cause of its own. -/
def Failure.message : Failure → String
  | .config path error =>
    let cause :=
      match error with
      | .io fileError => ": " ++ fileError.message
      | _ => ""
    "无法加载配置文件: " ++ path ++ ": " ++ error.message path ++ cause
  | .log filter error => "无效的日志过滤器: " ++ filter ++ ": " ++ error.message
  | .script path error => "无法读取脚本文件: " ++ path ++ ": " ++ error.message

/-- What is ready before a session begins. -/
structure Ready where
  /-- The script. -/
  script : Script
  /-- What the session does. -/
  options : SessionOptions
  /-- The limit on calls inside each other. -/
  limit : Nat
  /-- The variables that the program starts with. -/
  globals : List (String × Value)
  /-- What is written to the output before the session. -/
  output : String
  /-- What is written to the error output before the session. -/
  errors : String

/-- The name of a file without its directories and its last extension. -/
def fileStem (path : String) : String :=
  let name := ((path.splitOn "/").filter fun part => part != "" && part != ".").getLast?.getD path
  let reversed := name.toList.reverse
  match reversed.dropWhile (· != '.') with
  | [] => name
  | [_] => name
  | _ :: stem => if name = ".." then name else String.ofList stem.reverse

/-- The lines of a dump of tokens. -/
def tokenDump (source : String) : String :=
  String.join ((Lexed.ofSource source).tokens.map fun token => token.shown ++ "\n")

/-- The text of a dump of statements. -/
def statementDump (script : Script) : String :=
  (Json.array (Stmt.listToJson script.statements)).indented ++ "\n"

/-- Read configuration and script. The configuration is looked at first, then the filter for the
log, for which the environment may have a wish, and then the script. -/
def prepare (args : Arguments) (environment : Option String) (configFile scriptFile : FileRead) :
    Except Failure Ready := do
  let config ←
    match Config.load configFile with
    | .error error => .error (.config args.config error)
    | .ok found => .ok (found.getD Config.default)
  let globals ←
    match config.initialGlobals with
    | .error fault => .error (.config args.config (.invalid fault))
    | .ok globals => .ok globals
  let filter := Log.chosenFilter args.log environment config.logFilter
  (Log.checkFilter filter).mapError (.log filter)
  let source ←
    match scriptFile.text with
    | .error error => .error (.script args.script error)
    | .ok source => .ok source
  let script := Script.load (fileStem args.script) source
  return {
    script := script
    options := ⟨config.exitCommand, config.entryFunction, args.calls, !args.noRepl⟩
    limit := config.maxCallDepth
    globals := globals
    output :=
      (if args.dumpTokens then tokenDump source else "") ++
        (if args.dumpAst || config.dumpAst then statementDump script else "")
    errors := ParseError.reportText script.errors }

/-- Run the session on an input. -/
def session (fuel : Nat) (ready : Ready) (input : List UInt8) :
    Except Stop Unit × Interpreter Console :=
  let fresh := Interpreter.new (Console.new input none none)
  Session.run fuel ready.options ready.script
    ((fresh.withLimit ready.limit).withGlobals ready.globals)

/-- The line for a session that failed, if it did. -/
def sessionFailure : Except Stop Unit → Option String
  | .ok () => none
  | .error (.fault fault) => some (fatalLine ("控制台输出失败: " ++ fault.message))
  | .error .outOfFuel => some (fatalLine "控制台输出失败")

/-- What the program leaves behind after its session. -/
def conclude (ready : Ready) (result : Except Stop Unit × Interpreter Console) : ProgramResult :=
  let output := ready.output ++ result.2.host.output.text
  let errors := ready.errors ++ result.2.host.diagnostics.text
  match sessionFailure result.1 with
  | none => ⟨0, output, errors⟩
  | some line => ⟨1, output, errors ++ line⟩

/-- How the program is called. -/
def usage : String :=
  "Usage: titanic [OPTIONS] <SCRIPT>\n"

/-- The result of refused arguments: help is not an error. -/
def refuse : Arguments.Refusal → ProgramResult
  | .usage => ⟨2, "", usage⟩
  | .help => ⟨0, usage, ""⟩

/-- The whole program, given the filter for the log in its environment and how files are read. -/
def run (fuel : Nat) (args : List String) (environment : Option String)
    (read : String → FileRead) (input : List UInt8) : ProgramResult :=
  match Arguments.parse args with
  | .error refusal => refuse refusal
  | .ok args =>
    match prepare args environment (read args.config) (read args.script) with
    | .error failure => ⟨1, "", fatalLine failure.message⟩
    | .ok ready => conclude ready (session fuel ready input)

end Launch

end DialogueScript
