import DialogueScript.Config.Basic
import DialogueScript.File.Basic
import DialogueScript.Json.Printer
import DialogueScript.Json.Reader

set_option autoImplicit false

/-!
# Configuration files

A configuration is kept as a JSON object. Every field may be missing, and then has its default; a
field that is there has to have the right form and may not be repeated. Fields of other names are
passed over.

## Main definitions

* `DialogueScript.Config.parse?` — reading the text of a configuration.
* `DialogueScript.Config.load` — reading a configuration file.
* `DialogueScript.Config.saved` — the text of a configuration.
-/

namespace DialogueScript

/-- Why there is no configuration. -/
inductive ConfigError
  /-- The file cannot be read. -/
  | io (error : FileError)
  /-- The file is not a configuration. -/
  | parse
  /-- The configuration makes no sense. -/
  | invalid (fault : ConfigFault)
  deriving DecidableEq, Repr

namespace Config

/-! ## Reading -/

/-- The names of the fields. -/
def fieldNames : List String :=
  ["globals", "exit_command", "entry_function", "max_call_depth", "log_filter", "dump_ast"]

/-- At most so many arrays and objects may lie inside each other. -/
def nestingLimit : Nat :=
  127

/-- Read the fields of a configuration; those of other names are passed over. -/
def readFields : Json.Reader (List (String × Json)) := do
  let fields ← Json.Reader.members (Json.Reader.quoted true) fun name =>
    if fieldNames.contains name then some <$> Json.Reader.value true (nestingLimit - 1)
    else (fun _ => none) <$> Json.Reader.lenientValue
  return fields.filterMap fun (name, json?) => json?.map fun json => (name, json)

/-- No name occurs twice. -/
def distinctNames : List (String × Json) → Bool
  | [] => true
  | (name, _) :: later => !(later.any fun field => field.1 == name) && distinctNames later

/-- A field that may be missing, read in a given way. -/
def fieldOr? {α : Type} (fields : List (String × Json)) (name : String)
    (decode : Json → Option α) (default : α) : Option α :=
  match Json.findField? name fields with
  | none => some default
  | some json => decode json

/-- Read an object as a table of variables. -/
def globals? : Json → Option (Std.TreeMap String Json)
  | .object fields => some (Std.TreeMap.ofList fields)
  | _ => none

/-- Read a text or `null`. -/
def optionalText? : Json → Option (Option String)
  | .null => some none
  | .string text => some (some text)
  | _ => none

/-- The configuration that some fields make. -/
def ofFields? (fields : List (String × Json)) : Option Config := do
  let globals ← fieldOr? fields "globals" globals? default.globals
  let exitCommand ← fieldOr? fields "exit_command" Json.string? default.exitCommand
  let entryFunction ← fieldOr? fields "entry_function" optionalText? default.entryFunction
  let maxCallDepth ← fieldOr? fields "max_call_depth" Json.nat? default.maxCallDepth
  let logFilter ← fieldOr? fields "log_filter" Json.string? default.logFilter
  let dumpAst ← fieldOr? fields "dump_ast" Json.bool? default.dumpAst
  return ⟨globals, exitCommand, entryFunction, maxCallDepth, logFilter, dumpAst⟩

/-- Read the text of a configuration. -/
def parse? (text : String) : Option Config := do
  let fields ← readFields.runOn text
  if distinctNames fields then ofFields? fields else none

/-- Read a configuration file. Without a file there is no configuration. -/
def load (file : FileRead) : Except ConfigError (Option Config) :=
  if file.exists then
    match file.text with
    | .error error => .error (.io error)
    | .ok text =>
      match parse? text with
      | none => .error .parse
      | some config =>
        match config.validate with
        | .error fault => .error (.invalid fault)
        | .ok () => .ok (some config)
  else .ok none

/-! ## Writing -/

/-- A configuration as JSON. -/
def toJson (config : Config) : Json :=
  .object [("globals", .object config.globals.toList),
    ("exit_command", .string config.exitCommand),
    ("entry_function", Json.ofOption Json.string config.entryFunction),
    ("max_call_depth", Json.ofNat config.maxCallDepth),
    ("log_filter", .string config.logFilter),
    ("dump_ast", .bool config.dumpAst)]

/-- The text of a configuration. -/
def saved (config : Config) : String :=
  config.toJson.indented

/-- Reading the text of a configuration gives the configuration back. -/
def survivesSaving (config : Config) : Bool :=
  match parse? config.saved with
  | some again => config.same again
  | none => false

end Config

/-- The wording of a configuration error, for a file of the given name. -/
def ConfigError.message (path : String) : ConfigError → String
  | .io error => "配置 IO 错误: " ++ path ++ ": " ++ error.message
  | .parse => "配置解析失败"
  | .invalid fault => "配置验证失败: " ++ fault.message

end DialogueScript
