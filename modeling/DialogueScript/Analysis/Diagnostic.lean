import DialogueScript.Text.Integer

set_option autoImplicit false

/-!
# Diagnostics

What a check has to say about scripts, sorted into errors, warnings and remarks.

## Main definitions

* `DialogueScript.Diagnostic` — a single statement about a script.
* `DialogueScript.Diagnostic.shown` — its text.
* `DialogueScript.Diagnostic.count` — how many there are of a level.
-/

namespace DialogueScript

/-- How serious a diagnostic is. -/
inductive Level
  /-- A remark. -/
  | info
  /-- Something that should be mended. -/
  | warn
  /-- Something that must be mended. -/
  | error
  deriving DecidableEq, Repr

/-- The name of a level. -/
def Level.label : Level → String
  | .info => "INFO"
  | .warn => "WARN"
  | .error => "ERROR"

/-- A statement about a script. -/
structure Diagnostic where
  /-- How serious it is. -/
  level : Level
  /-- The script it is about. -/
  scriptId : String
  /-- The line it is about, if there is a single one. -/
  line : Option Nat
  /-- What it says. -/
  message : String
  /-- What else there is to say. -/
  detail : Option String
  deriving DecidableEq, Repr

namespace Diagnostic

/-- The text of a diagnostic; the detail stands on a line of its own. -/
def shown (d : Diagnostic) : String :=
  let place :=
    match d.line with
    | some line => ":" ++ Text.natText line
    | none => ""
  let detail :=
    match d.detail with
    | some text => "\n  | " ++ text
    | none => ""
  "[" ++ d.level.label ++ "] " ++ d.scriptId ++ place ++ ": " ++ d.message ++ detail

/-- How many diagnostics are of the given level. -/
def count (level : Level) (ds : List Diagnostic) : Nat :=
  ds.countP fun d => d.level == level

/-- There is an error among the diagnostics. -/
def hasErrors (ds : List Diagnostic) : Bool :=
  decide (0 < count .error ds)

end Diagnostic

end DialogueScript
