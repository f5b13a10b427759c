import DialogueScript.Interpreter.Basic
import DialogueScript.Text.Blank
import DialogueScript.Value.Json

set_option autoImplicit false

/-!
# Configurations

What a user can set for the console: the variables a program starts with, the exit command, a
function to be called first, the limit on calls inside each other, and what is logged and dumped.

## Main definitions

* `DialogueScript.Config` — configurations.
* `DialogueScript.Config.default` — the configuration without a file.
* `DialogueScript.Config.validate` — whether a configuration makes sense.
* `DialogueScript.Config.initialGlobals` — the values of the variables.
-/

namespace DialogueScript

/-- The settings of the console. -/
structure Config where
  /-- The variables that a program starts with. -/
  globals : Std.TreeMap String Json
  /-- What the user types to end a session. -/
  exitCommand : String
  /-- A function to be called first. -/
  entryFunction : Option String
  /-- How many calls may lie inside each other. -/
  maxCallDepth : Nat
  /-- What is logged. -/
  logFilter : String
  /-- The statements of a script are written out before it is run. -/
  dumpAst : Bool

/-- Why a configuration makes no sense. -/
inductive ConfigFault
  /-- The limit on calls inside each other is zero or too great. -/
  | callDepth
  /-- The exit command is blank. -/
  | exitCommand
  /-- A variable's value is an array or object. -/
  | notScalar (name : String)
  deriving DecidableEq, Repr

/-- The wording of a fault. -/
def ConfigFault.message : ConfigFault → String
  | .callDepth =>
    "max_call_depth 必须在 1 - " ++ Text.natText Interpreter.greatestLimit ++ " 之间"
  | .exitCommand => "exit_command 不能为空"
  | .notScalar name => "全局变量 " ++ name ++ " 必须是标量（数字、字符串、布尔或 null）"

namespace Config

/-- The variables that a program starts with where none are set. -/
def defaultGlobals : Std.TreeMap String Json :=
  Std.TreeMap.ofList
    [("mission", Json.int 1), ("phase", Json.int 0),
      ("pennybrush", Json.string "firstEncounter")]

/-- The configuration without a file. -/
def default : Config :=
  { globals := defaultGlobals
    exitCommand := "exit"
    entryFunction := none
    maxCallDepth := Interpreter.defaultLimit
    logFilter := "warn"
    dumpAst := false }

/-- The value of a scalar. An integer that fits in no 64-bit signed word becomes a double. -/
def scalarValue? : Json → Option Value
  | .null => some .nil
  | .bool b => some (.bool b)
  | .string text => some (.str text)
  | .int n =>
    if Text.fitsInt64 n then some (.integer (Int64.ofInt n))
    else some (.float (Value.floatOfInt n))
  | .float x => some (.float x)
  | .array _ => none
  | .object _ => none

/-- The values of some variables; the first that has none is at fault. -/
def valuesOf : List (String × Json) → Except ConfigFault (List (String × Value))
  | [] => .ok []
  | (name, json) :: later =>
    match scalarValue? json with
    | none => .error (.notScalar name)
    | some value => (valuesOf later).map ((name, value) :: ·)

/-- The values of the variables that a program starts with, by increasing name. -/
def initialGlobals (config : Config) : Except ConfigFault (List (String × Value)) :=
  valuesOf config.globals.toList

/-- Whether a configuration makes sense. The limit is looked at first, then the exit command, then
the variables. -/
def validate (config : Config) : Except ConfigFault Unit :=
  if config.maxCallDepth = 0 ∨ Interpreter.greatestLimit < config.maxCallDepth then
    .error .callDepth
  else if Text.isBlankText config.exitCommand.toList then .error .exitCommand
  else config.initialGlobals.map fun _ => ()

/-- Two configurations agree in every setting, numbers being compared by value. -/
def same (a b : Config) : Bool :=
  a.globals.toList == b.globals.toList && a.exitCommand == b.exitCommand &&
    a.entryFunction == b.entryFunction && a.maxCallDepth == b.maxCallDepth &&
    a.logFilter == b.logFilter && a.dumpAst == b.dumpAst

end Config

end DialogueScript
