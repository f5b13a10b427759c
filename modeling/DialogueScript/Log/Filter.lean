import DialogueScript.Decimal.Read
import DialogueScript.Log.Level
import DialogueScript.Log.Pattern

set_option autoImplicit false

/-!
# Log filters

A filter says what is logged. It is a list of directives with commas between them, and each of
these gives a level to the messages of a target, of a span, or of both:

    LEVEL
    TARGET[SPAN{FIELD=VALUE}]=LEVEL

Every part of the second form may be missing. A value is a number or a pattern. Writing the log is
left to the outside; what matters here is whether a filter can be used.

The parts of a directive are found by their distance from its first character that is not blank,
and taken at the same distance from its beginning.

## Main definitions

* `DialogueScript.Log.FilterError` — why a filter cannot be used.
* `DialogueScript.Log.checkDirective` — the check of a directive.
* `DialogueScript.Log.checkFilter` — the check of a filter.
* `DialogueScript.Log.chosenFilter` — the filter that is used.
-/

namespace DialogueScript.Log

/-! ## Errors -/

/-- Why a filter cannot be used. -/
inductive FilterError
  /-- A directive does not have the right form. -/
  | directive
  /-- What stands in the place of a level is none. -/
  | level
  /-- The pattern for a field is not well formed. -/
  | pattern (text : List Char) (error : PatternError)
  deriving DecidableEq, Repr

/-- The causes of an error, each behind the one that it explains. -/
def FilterError.causes : FilterError → List String
  | .directive => ["invalid filter directive"]
  | .level =>
    let cause :=
      "error parsing level filter: expected one of \"off\", \"error\", \"warn\", \"info\", " ++
        "\"debug\", \"trace\", or a number 0-5"
    [cause, cause]
  | .pattern text error =>
    ["invalid field filter: error building NFA", "error building NFA", "error parsing regex",
      error.message text]

/-- The wording of an error: its causes, with colons between them. -/
def FilterError.message (error : FilterError) : String :=
  String.intercalate ": " error.causes

/-! ## Directives -/

/-- A text without its first bytes. -/
def dropBytes : (count : Nat) → List Char → List Char
  | 0, text => text
  | _, [] => []
  | count + 1, c :: text => dropBytes (count + 1 - c.utf8Size) text
termination_by _ text => text.length

/-- The first bytes of a text. -/
def takeBytes : (count : Nat) → List Char → List Char
  | 0, _ => []
  | _, [] => []
  | count + 1, c :: text => c :: takeBytes (count + 1 - c.utf8Size) text
termination_by _ text => text.length

/-- Check what a directive says about a field: a name, and perhaps an equals sign and a value. -/
def checkField (field : List Char) : Except FilterError Unit :=
  match field, (field.dropWhile (· != '=')).tail? with
  | [], _ => .error .directive
  | _, none => .ok ()
  | _, some behind =>
    let value := behind.takeWhile (· != '=')
    if (Decimal.read? value).isSome then .ok ()
    else (Pattern.check value).mapError (.pattern value)

/-- The part of a directive that is being read. -/
inductive Part
  /-- Nothing has been read. -/
  | beginning
  /-- A level or a target. -/
  | name
  /-- The name of a span. -/
  | span
  /-- A field that begins at the given distance. -/
  | field (start : Nat)
  /-- What is behind the fields. -/
  | behindFields
  /-- What is behind a span. -/
  | behindSpan
  /-- A level that begins at the given distance. -/
  | level (start : Nat)
  deriving DecidableEq, Repr

/-- The characters that a level or a target begins with. -/
def beginsName (c : Char) : Bool :=
  c == '-' || c == ':' || c == '_' || Text.isAlphanumeric c

/-- The part that is being read behind one more character, which has the given distance. -/
def Part.next (text : List Char) (distance : Nat) (c : Char) : Part → Except FilterError Part
  | .beginning =>
    if c = '[' then .ok .span else if beginsName c then .ok .name else .error .directive
  | .name =>
    if c = '=' then .ok (.level (distance + 1))
    else if c = '[' then .ok .span
    else .ok .name
  | .span =>
    if c = ']' then .ok .behindSpan
    else if c = '{' then .ok (.field (distance + 1))
    else .ok .span
  | .field start =>
    if c = '}' then do
      checkField (takeBytes (distance - start) (dropBytes start text))
      return .behindFields
    else .ok (.field start)
  | .behindFields => if c = ']' then .ok .behindSpan else .error .directive
  | .behindSpan => if c = '=' then .ok (.level (distance + 1)) else .error .directive
  | .level start => .ok (.level start)

/-- Check that a directive may end with a part. The level may be left out behind its sign. -/
def Part.finish (text : List Char) : Part → Except FilterError Unit
  | .name => .ok ()
  | .behindSpan => .ok ()
  | .level start =>
    let level := dropBytes start text
    if level.isEmpty || (Level.ofText? level).isSome then .ok () else .error .level
  | _ => .error .directive

/-- The part that is being read behind some more characters, of which the first has the given
distance. -/
def Part.after (text : List Char) : (distance : Nat) → Part → List Char → Except FilterError Part
  | _, part, [] => .ok part
  | distance, part, c :: rest => do
    Part.after text (distance + c.utf8Size) (← part.next text distance c) rest

/-- Check a directive. -/
def checkDirective (text : List Char) : Except FilterError Unit := do
  (← Part.after text 0 .beginning (Text.trim text)).finish text

/-! ## Filters -/

/-- Check a filter. A directive may be empty; the first one that is wrong decides. -/
def checkFilter (filter : String) : Except FilterError Unit :=
  (filter.splitOn ",").forM fun text =>
    if text.isEmpty then .ok () else checkDirective text.toList

/-- The filter that is used: what the arguments say, else what the environment says, unless it is
blank; then what the configuration says, unless it is blank; else warnings. -/
def chosenFilter (argument environment : Option String) (config : String) : String :=
  match (argument.or environment).filter fun text => !Text.isBlankText text.toList with
  | some text => text
  | none => if Text.isBlankText config.toList then "warn" else config

end DialogueScript.Log
