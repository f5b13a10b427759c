set_option autoImplicit false

/-!
# Arguments of the console program

    <SCRIPT> [-c|--config PATH] [--log FILTER] [--dump-tokens] [--dump-ast]
             [--call NAME]... [--no-repl]

An option's value may be the next argument or follow an equals sign; behind `-c` it may also
follow directly. The next argument is no value if it looks like an option. Everything behind a
bare `--` is a path. Apart from `--call`, nothing may be given twice.

## Main definitions

* `DialogueScript.Arguments` — what the arguments ask for.
* `DialogueScript.Arguments.parse` — reading the arguments.
-/

namespace DialogueScript

/-- What the arguments of the console program ask for. -/
structure Arguments where
  /-- The file with the script. -/
  script : String
  /-- The configuration file. -/
  config : String
  /-- What is logged, if the arguments say so. -/
  log : Option String
  /-- The tokens of the script are written out. -/
  dumpTokens : Bool
  /-- The statements of the script are written out. -/
  dumpAst : Bool
  /-- Functions to be called, in order. -/
  calls : List String
  /-- The user is not asked for functions to call. -/
  noRepl : Bool
  deriving DecidableEq, Repr

namespace Arguments

/-- The configuration file that is used where none is named. -/
def defaultConfig : String :=
  "titanic.json"

/-! ## Options -/

/-- The options that take a value. -/
inductive ValueOption
  /-- The configuration file. -/
  | config
  /-- What is logged. -/
  | log
  /-- A function to be called. -/
  | call
  deriving DecidableEq, Repr

/-- The options that take none. -/
inductive Switch
  /-- Write out the tokens. -/
  | dumpTokens
  /-- Write out the statements. -/
  | dumpAst
  /-- Do not ask the user. -/
  | noRepl
  deriving DecidableEq, Repr

/-- What one argument, or an option with its value, says. -/
inductive Item
  /-- A path. -/
  | path (path : String)
  /-- An option with a value. -/
  | setting (option : ValueOption) (value : String)
  /-- An option without one. -/
  | switch (switch : Switch)
  deriving DecidableEq, Repr

/-- Why the arguments are not run. -/
inductive Refusal
  /-- They are not understood. -/
  | usage
  /-- They ask for help. -/
  | help
  deriving DecidableEq, Repr

/-- The option with a value that has the given long name. -/
def valueOption? (name : String) : Option ValueOption :=
  match name with
  | "config" => some .config
  | "log" => some .log
  | "call" => some .call
  | _ => none

/-- The option without a value that has the given long name. -/
def switch? (name : String) : Option Switch :=
  match name with
  | "dump-tokens" => some .dumpTokens
  | "dump-ast" => some .dumpAst
  | "no-repl" => some .noRepl
  | _ => none

/-- An argument looks like an option: it begins with a hyphen and is not just one. -/
def looksLikeOption (arg : String) : Bool :=
  arg.startsWith "-" && arg != "-"

/-- Split a text at its first equals sign. -/
def splitEquals (cs : List Char) : List Char × Option (List Char) :=
  (cs.takeWhile (· != '='), ((cs.dropWhile (· != '=')).tail?))

/-- An option whose value has to be the next argument. -/
def takeValue (option : ValueOption) (rest : List String) :
    Except Refusal (Item × List String) :=
  match rest with
  | [] => .error .usage
  | value :: later =>
    if looksLikeOption value then .error .usage else .ok (.setting option value, later)

/-- An option with a long name. -/
def longItem (body : List Char) (rest : List String) : Except Refusal (Item × List String) :=
  let (name, value?) := splitEquals body
  let name := String.ofList name
  match valueOption? name, switch? name, value? with
  | some option, _, some value => .ok (.setting option (String.ofList value), rest)
  | some option, _, none => takeValue option rest
  | none, some switch, none => .ok (.switch switch, rest)
  | none, _, _ => if name = "help" ∧ value? = none then .error .help else .error .usage

/-- An option with a short name. -/
def shortItem (body : List Char) (rest : List String) : Except Refusal (Item × List String) :=
  match body with
  | ['c'] => takeValue .config rest
  | 'c' :: '=' :: value => .ok (.setting .config (String.ofList value), rest)
  | 'c' :: value => .ok (.setting .config (String.ofList value), rest)
  | 'h' :: _ => .error .help
  | _ => .error .usage

/-- The first of the arguments, with its value if it is an option that takes one, and the
arguments behind it. -/
def firstItem (arg : String) (rest : List String) : Except Refusal (Item × List String) :=
  match arg.toList with
  | '-' :: '-' :: body => longItem body rest
  | '-' :: c :: body => shortItem (c :: body) rest
  | _ => .ok (.path arg, rest)

/-! ## Putting them together -/

/-- What the arguments read so far ask for. -/
structure Draft where
  /-- The file with the script. -/
  script : Option String := none
  /-- The configuration file. -/
  config : Option String := none
  /-- What is logged. -/
  log : Option String := none
  /-- Functions to be called, in order. -/
  calls : List String := []
  /-- The options without a value that were given. -/
  switches : List Switch := []
  deriving DecidableEq, Repr

/-- The first value for something that is given at most once. -/
def onlyOnce (before : Option String) (value : String) : Except Refusal (Option String) :=
  match before with
  | none => .ok (some value)
  | some _ => .error .usage

/-- The first path for something that is given at most once. A path may not be empty. -/
def onlyPath (before : Option String) (path : String) : Except Refusal (Option String) :=
  if path = "" then .error .usage else onlyOnce before path

/-- Take in one more item. -/
def Draft.add (draft : Draft) : Item → Except Refusal Draft
  | .path path => do return { draft with script := ← onlyPath draft.script path }
  | .setting .config path => do return { draft with config := ← onlyPath draft.config path }
  | .setting .log value => do return { draft with log := ← onlyOnce draft.log value }
  | .setting .call name => .ok { draft with calls := draft.calls ++ [name] }
  | .switch switch =>
    if switch ∈ draft.switches then .error .usage
    else .ok { draft with switches := draft.switches ++ [switch] }

/-- Take in the arguments from left to right, so that the first of them that is refused decides:
help is given only where nothing before it was wrong. -/
def Draft.takeWithin : (fuel : Nat) → Draft → List String → Except Refusal Draft
  | _, draft, [] => .ok draft
  | 0, _, _ :: _ => .error .usage
  | fuel + 1, draft, arg :: rest =>
    if arg = "--" then rest.foldlM (fun draft path => draft.add (.path path)) draft
    else do
      let (item, later) ← firstItem arg rest
      takeWithin fuel (← draft.add item) later

/-- What the arguments ask for once all of them are read. A script has to be among them. -/
def Draft.finish (draft : Draft) : Except Refusal Arguments :=
  match draft.script with
  | none => .error .usage
  | some script => .ok {
      script := script
      config := draft.config.getD defaultConfig
      log := draft.log
      dumpTokens := decide (.dumpTokens ∈ draft.switches)
      dumpAst := decide (.dumpAst ∈ draft.switches)
      calls := draft.calls
      noRepl := decide (.noRepl ∈ draft.switches) }

/-- Read the arguments. Each of them takes in at least itself, so their number bounds the
reading. -/
def parse (args : List String) : Except Refusal Arguments := do
  (← Draft.takeWithin args.length {} args).finish

end Arguments

end DialogueScript
