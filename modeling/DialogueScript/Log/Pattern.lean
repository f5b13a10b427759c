import DialogueScript.Text.Blank
import DialogueScript.Text.Integer
import DialogueScript.Text.Letter

set_option autoImplicit false

/-!
# Patterns

A pattern is a regular expression for the text of a field. Nothing is matched here: what counts is
whether a pattern is well formed and, if it is not, where and why.

A pattern stands between braces in a list, so that neither a closing brace nor a comma occurs in
it; a counted repetition, which needs a closing brace, is therefore never complete.

## Main definitions

* `DialogueScript.Log.PatternFault` — what can be wrong with a pattern.
* `DialogueScript.Log.PatternError` — a fault with the places that show it.
* `DialogueScript.Log.Pattern.check` — the check of a pattern.
* `DialogueScript.Log.PatternError.message` — the report of an error.
-/

namespace DialogueScript.Log

/-! ## Errors -/

/-- What can be wrong with a pattern. -/
inductive PatternFault
  /-- An escape in a class that stands for no character. -/
  | classEscape
  /-- A range that ends before it begins. -/
  | classRange
  /-- A range with an end that is no character. -/
  | classBoundary
  /-- A class without its closing bracket. -/
  | classUnclosed
  /-- A count without a number. -/
  | countEmpty
  /-- A count that is too large. -/
  | countNumber
  /-- A count without its closing brace. -/
  | countUnclosed
  /-- A backslash, or an escape, that ends too early. -/
  | escapeEnd
  /-- An escape without a meaning. -/
  | escapeUnknown
  /-- A digit of an escape that is not hexadecimal. -/
  | hexDigit
  /-- An escape for a number that is no character. -/
  | hexValue
  /-- A minus sign with no flag behind it. -/
  | flagDangling
  /-- A flag that is given twice. -/
  | flagDuplicate
  /-- A second minus sign among flags. -/
  | flagNegation
  /-- Flags that do not end. -/
  | flagEnd
  /-- A letter that is no flag. -/
  | flagUnknown
  /-- A name that two groups have. -/
  | nameDuplicate
  /-- A group with an empty name. -/
  | nameEmpty
  /-- A character that may not stand in a name. -/
  | nameCharacter
  /-- A name that does not end. -/
  | nameEnd
  /-- A group without its closing parenthesis. -/
  | groupUnclosed
  /-- A closing parenthesis without a group. -/
  | groupUnopened
  /-- A repetition of nothing. -/
  | repetition
  /-- A property that begins with a backslash. -/
  | property
  /-- A reference to an earlier group. -/
  | backreference
  /-- A condition on what stands around the match. -/
  | lookAround
  deriving DecidableEq, Repr

/-- The wording of a fault. -/
def PatternFault.message : PatternFault → String
  | .classEscape => "invalid escape sequence found in character class"
  | .classRange => "invalid character class range, the start must be <= the end"
  | .classBoundary => "invalid range boundary, must be a literal"
  | .classUnclosed => "unclosed character class"
  | .countEmpty => "repetition quantifier expects a valid decimal"
  | .countNumber => "decimal literal invalid"
  | .countUnclosed => "unclosed counted repetition"
  | .escapeEnd => "incomplete escape sequence, reached end of pattern prematurely"
  | .escapeUnknown => "unrecognized escape sequence"
  | .hexDigit => "invalid hexadecimal digit"
  | .hexValue => "hexadecimal literal is not a Unicode scalar value"
  | .flagDangling => "dangling flag negation operator"
  | .flagDuplicate => "duplicate flag"
  | .flagNegation => "flag negation operator repeated"
  | .flagEnd => "expected flag but got end of regex"
  | .flagUnknown => "unrecognized flag"
  | .nameDuplicate => "duplicate capture group name"
  | .nameEmpty => "empty capture group name"
  | .nameCharacter => "invalid capture group character"
  | .nameEnd => "unclosed capture group name"
  | .groupUnclosed => "unclosed group"
  | .groupUnopened => "unopened group"
  | .repetition => "repetition operator missing expression"
  | .property => "invalid Unicode character class"
  | .backreference => "backreferences are not supported"
  | .lookAround => "look-around, including look-ahead and look-behind, is not supported"

/-- A stretch of a pattern, from one column up to another. -/
structure Stretch where
  /-- The column of the first character. -/
  start : Nat
  /-- The column behind the last character. -/
  stop : Nat
  deriving DecidableEq, Repr

/-- A fault with the places that show it. -/
structure PatternError where
  /-- What is wrong. -/
  fault : PatternFault
  /-- The places, from left to right. -/
  places : List Stretch
  deriving DecidableEq, Repr

/-- Marks under the places of an error. An empty place has a mark of its own. -/
def PatternError.marks : (column : Nat) → List Stretch → List Char
  | _, [] => []
  | column, place :: later =>
    let width := max 1 (place.stop - place.start)
    List.replicate (place.start - column) ' ' ++ List.replicate width '^' ++
      marks (max column place.start + width) later

/-- The report of an error: the pattern, the marks under it, and what is wrong. -/
def PatternError.message (pattern : List Char) (error : PatternError) : String :=
  "regex parse error:\n    " ++ String.ofList pattern ++ "\n    " ++
    String.ofList (marks 0 error.places) ++ "\nerror: " ++ error.fault.message

namespace Pattern

/-- An error with one place. -/
def fail {α : Type} (fault : PatternFault) (start stop : Nat) : Except PatternError α :=
  .error ⟨fault, [⟨start, stop⟩]⟩

/-- A place in a pattern. -/
structure Place where
  /-- The number of characters behind it. -/
  column : Nat
  /-- The characters ahead. -/
  ahead : List Char
  deriving DecidableEq, Repr

/-- The place some characters further. -/
def Place.skip (place : Place) (count : Nat) : Place :=
  ⟨place.column + count, place.ahead.drop count⟩

/-- The place behind the characters of a class. -/
def Place.skipWhile (place : Place) (p : Char → Bool) : Place :=
  place.skip (place.ahead.takeWhile p).length

/-- The place behind a text that stands ahead. -/
def Place.behind? (place : Place) (text : String) : Option Place :=
  if text.toList.isPrefixOf place.ahead then some (place.skip text.length) else none

/-! ## Escapes -/

/-- What an escape stands for. -/
inductive Escaped
  /-- A character. -/
  | literal (c : Char)
  /-- A class of characters. -/
  | charClass
  /-- A condition on a place in the text. -/
  | assertion
  deriving DecidableEq, Repr

/-- The value of a hexadecimal digit. -/
def hexValue? (c : Char) : Option Nat :=
  if c.isDigit then some (c.toNat - '0'.toNat)
  else if 'a' ≤ c ∧ c ≤ 'f' then some (c.toNat - 'a'.toNat + 10)
  else if 'A' ≤ c ∧ c ≤ 'F' then some (c.toNat - 'A'.toNat + 10)
  else none

/-- Read a fixed number of hexadecimal digits. -/
def hexDigits : (count : Nat) → (value : Nat) → Place → Except PatternError (Nat × Place)
  | 0, value, place => .ok (value, place)
  | count + 1, value, place =>
    match place.ahead with
    | [] => fail .escapeEnd place.column place.column
    | c :: _ =>
      match hexValue? c with
      | none => fail .hexDigit place.column (place.column + 1)
      | some digit => hexDigits count (16 * value + digit) (place.skip 1)

/-- Read the number of a character behind the letter that announces it. -/
def hexEscape (count : Nat) (place : Place) : Except PatternError (Escaped × Place) :=
  if place.ahead.head? = some '{' then
    let last := (place.skip 1).skipWhile fun c => (hexValue? c).isSome
    match last.ahead with
    | [] => fail .escapeEnd place.column last.column
    | _ => fail .hexDigit last.column (last.column + 1)
  else do
    let (value, last) ← hexDigits count 0 place
    if value.isValidChar then return (.literal (Char.ofNat value), last)
    else fail .hexValue place.column last.column

/-- Read the name of a property behind the letter that announces it. -/
def propertyEscape (place : Place) : Except PatternError (Escaped × Place) :=
  match place.ahead with
  | [] => fail .escapeEnd place.column place.column
  | '{' :: later =>
    let stop := place.column + 1 + later.length
    fail .escapeEnd stop stop
  | '\\' :: _ => fail .property place.column (place.column + 1)
  | _ => .ok (.charClass, place.skip 1)

/-- The characters that stand for a control character behind a backslash. -/
def controlOf? : Char → Option Char
  | 'a' => some '\x07'
  | 'f' => some '\x0c'
  | 't' => some '\t'
  | 'n' => some '\n'
  | 'r' => some '\r'
  | 'v' => some '\x0b'
  | _ => none

/-- A character that stands for itself behind a backslash: of ASCII, all but letters, digits and
angle brackets. -/
def isEscapable (c : Char) : Bool :=
  decide (c.toNat < 128) && !c.isAlphanum && c != '<' && c != '>'

/-- Read an escape, from its backslash on. -/
def escape (place : Place) : Except PatternError (Escaped × Place) :=
  match place.ahead.tail with
  | [] => fail .escapeEnd place.column (place.column + 1)
  | c :: _ =>
    if c.isDigit then fail .backreference place.column (place.column + 2)
    else if c = 'x' then hexEscape 2 (place.skip 2)
    else if c = 'u' then hexEscape 4 (place.skip 2)
    else if c = 'U' then hexEscape 8 (place.skip 2)
    else if c = 'p' ∨ c = 'P' then propertyEscape (place.skip 2)
    else if c ∈ "dswDSW".toList then .ok (.charClass, place.skip 2)
    else if c ∈ "AzbB<>".toList then .ok (.assertion, place.skip 2)
    else
      match controlOf? c with
      | some control => .ok (.literal control, place.skip 2)
      | none =>
        if isEscapable c then .ok (.literal c, place.skip 2)
        else fail .escapeUnknown place.column (place.column + 2)

/-! ## Classes of characters -/

/-- The classes that have a name. -/
def namedClasses : List String :=
  ["alnum", "alpha", "ascii", "blank", "cntrl", "digit", "graph", "lower", "print", "punct",
    "space", "upper", "word", "xdigit"]

/-- The place behind the name of a class in brackets and colons. -/
def namedClass? (place : Place) : Option Place := do
  let inner ← place.behind? "[:"
  let inner := (inner.behind? "^").getD inner
  let name := inner.ahead.takeWhile (· != ':')
  if String.ofList name ∈ namedClasses then (inner.skip name.length).behind? ":]" else none

/-- Read the beginning of a class: its bracket, a sign that negates it, and what may only there
stand for itself. -/
def classOpening (place : Place) : Except PatternError (Stretch × Place) :=
  let start := place.column
  let inner := place.skip 1
  let inner := (inner.behind? "^").getD inner
  let hyphens := inner.skipWhile (· == '-')
  let opened :=
    if hyphens.column = inner.column then (inner.behind? "]").getD inner else hyphens
  if opened.ahead.isEmpty then
    fail .classUnclosed start (if hyphens.column = inner.column then opened.column else start)
  else .ok (⟨start, opened.column⟩, opened)

/-- Read one character or escape of a class. -/
def classItem (place : Place) : Except PatternError (Escaped × Place) :=
  match place.ahead with
  | '\\' :: _ => escape place
  | c :: _ => .ok (.literal c, place.skip 1)
  | [] => fail .classUnclosed place.column place.column

/-- The character at an end of a range. -/
def boundary (item : Escaped) (start stop : Nat) : Except PatternError Char :=
  match item with
  | .literal c => .ok c
  | _ => fail .classBoundary start stop

/-- The place behind an item that stands alone, which is a character or a class. -/
def single (item : Escaped) (start : Nat) (behind : Place) : Except PatternError Place :=
  if item = .assertion then fail .classEscape start behind.column else .ok behind

/-- Read a character, an escape or a range of a class that was opened at the given stretch. -/
def classRange (opened : Stretch) (place : Place) : Except PatternError Place := do
  let unclosed := fail .classUnclosed opened.start opened.stop
  let (first, middle) ← classItem place
  match middle.ahead with
  | [] => unclosed
  | ['-'] => unclosed
  | '-' :: c :: _ =>
    if c = ']' ∨ c = '-' then single first place.column middle
    else
      let (last, behind) ← classItem (middle.skip 1)
      let low ← boundary first place.column middle.column
      let high ← boundary last (middle.column + 1) behind.column
      if low ≤ high then return behind else fail .classRange place.column behind.column
  | _ => single first place.column middle

/-- Read the rest of nested classes, of which the innermost comes first. -/
def classRest : (fuel : Nat) → (opened : Stretch) → (outer : List Stretch) → Place →
    Except PatternError Place
  | 0, opened, _, _ => fail .classUnclosed opened.start opened.stop
  | fuel + 1, opened, outer, place =>
    match place.ahead with
    | [] => fail .classUnclosed opened.start opened.stop
    | ']' :: _ =>
      match outer with
      | [] => .ok (place.skip 1)
      | next :: further => classRest fuel next further (place.skip 1)
    | '[' :: _ =>
      match namedClass? place with
      | some behind => classRest fuel opened outer behind
      | none => do
        let (inner, behind) ← classOpening place
        classRest fuel inner (opened :: outer) behind
    | c :: next =>
      if c ∈ ['&', '-', '~'] ∧ next.head? = some c then classRest fuel opened outer (place.skip 2)
      else do classRest fuel opened outer (← classRange opened place)

/-- Read a class, from its bracket on. -/
def bracketed (place : Place) : Except PatternError Place := do
  let (opened, behind) ← classOpening place
  classRest (behind.ahead.length + 1) opened [] behind

/-! ## Groups -/

/-- A character that may stand in the name of a group. -/
def isNameCharacter (first : Bool) (c : Char) : Bool :=
  if first then c == '_' || Text.isLetter c
  else c == '_' || c == '.' || c == '[' || c == ']' || Text.isAlphanumeric c

/-- The names of groups, with the places where they stand. -/
abbrev Names : Type :=
  List (List Char × Stretch)

/-- Read the name of a group up to the angle bracket that closes it. -/
def groupName (names : Names) (place : Place) : Except PatternError (Names × Place) :=
  let first := (place.ahead.head?.filter (isNameCharacter true)).toList
  let last :=
    if first.isEmpty then place else (place.skip 1).skipWhile (isNameCharacter false)
  match last.ahead with
  | [] => fail .nameEnd last.column last.column
  | '>' :: _ =>
    let name := place.ahead.take (last.column - place.column)
    let stretch : Stretch := ⟨place.column, last.column⟩
    if name.isEmpty then fail .nameEmpty place.column place.column
    else
      match names.find? (·.1 = name) with
      | some (_, earlier) => .error ⟨.nameDuplicate, [earlier, stretch]⟩
      | none => .ok ((name, stretch) :: names, last.skip 1)
  | _ => fail .nameCharacter last.column (last.column + 1)

/-- Read flags up to the colon or parenthesis behind them. The flags read so far are given with
their columns, the last one first. -/
def flags : (read : List (Char × Nat)) → Place → Except PatternError (List (Char × Nat) × Place)
  | _, ⟨column, []⟩ => fail .flagEnd column column
  | read, ⟨column, c :: next⟩ =>
    if c = ':' ∨ c = ')' then
      match read with
      | ('-', start) :: _ => fail .flagDangling start (start + 1)
      | _ => .ok (read, ⟨column, c :: next⟩)
    else if c ∉ "-imsUuRx".toList then fail .flagUnknown column (column + 1)
    else
      match read.find? (·.1 = c) with
      | some (_, earlier) =>
        let fault := if c = '-' then .flagNegation else .flagDuplicate
        .error ⟨fault, [⟨earlier, earlier + 1⟩, ⟨column, column + 1⟩]⟩
      | none => flags ((c, column) :: read) ⟨column + 1, next⟩
termination_by _ place => place.ahead.length

/-! ## Whole patterns -/

/-- How far a pattern has been checked. -/
structure Progress where
  /-- The place reached. -/
  place : Place
  /-- The columns of the groups that are open, the innermost first. -/
  groups : List Nat := []
  /-- The names of groups. -/
  names : Names := []
  /-- There is something that may be repeated in front of the place. -/
  repeatable : Bool := false
  deriving DecidableEq, Repr

/-- Take in an item that may be repeated. -/
def Progress.item (progress : Progress) (place : Place) : Progress :=
  { progress with place := place, repeatable := true }

/-- Take in the beginning of a group. -/
def Progress.opened (progress : Progress) (names : Names) (place : Place) : Progress :=
  ⟨place, progress.place.column :: progress.groups, names, false⟩

/-- The conditions on what stands around a match. -/
def lookArounds : List String :=
  ["?=", "?!", "?<=", "?<!"]

/-- Read the beginning of a group, from its parenthesis on. -/
def groupOpening (progress : Progress) : Except PatternError Progress :=
  let start := progress.place.column
  let inner := progress.place.skip 1
  match lookArounds.findSome? inner.behind? with
  | some behind => fail .lookAround start behind.column
  | none =>
    match (inner.behind? "?P<").orElse fun _ => inner.behind? "?<" with
    | some behind => do
      let (names, place) ← groupName progress.names behind
      return progress.opened names place
    | none =>
      match inner.behind? "?" with
      | none => .ok (progress.opened progress.names inner)
      | some behind =>
        if behind.ahead.isEmpty then fail .groupUnclosed start (start + 1)
        else do
          let (read, place) ← flags [] behind
          if place.ahead.head? = some ':' then
            return progress.opened progress.names (place.skip 1)
          else if read.isEmpty then fail .repetition inner.column inner.column
          else return { progress with place := place.skip 1, repeatable := false }

/-- Read a count, from its brace on. It is never closed. -/
def counted (place : Place) : Except PatternError Progress :=
  let digits := (place.skip 1).skipWhile Text.isBlank
  let last := digits.skipWhile Char.isDigit
  let behind := last.skipWhile Text.isBlank
  let number := digits.ahead.takeWhile Char.isDigit
  if behind.ahead.isEmpty then fail .countUnclosed place.column behind.column
  else if number.isEmpty then fail .countEmpty digits.column digits.column
  else if UInt32.size ≤ Text.natOfDigits number then fail .countNumber digits.column last.column
  else fail .countUnclosed place.column behind.column

/-- Take in the next part of a pattern. -/
def Progress.step (progress : Progress) : Except PatternError Progress :=
  let place := progress.place
  let missing := fail .repetition place.column place.column
  match place.ahead with
  | [] => .ok progress
  | '(' :: _ => groupOpening progress
  | ')' :: _ =>
    match progress.groups with
    | [] => fail .groupUnopened place.column (place.column + 1)
    | _ :: outer => .ok { progress.item (place.skip 1) with groups := outer }
  | '|' :: _ => .ok { progress with place := place.skip 1, repeatable := false }
  | '[' :: _ => do return progress.item (← bracketed place)
  | '\\' :: _ => do return progress.item (← escape place).2
  | '{' :: _ => if progress.repeatable then counted place else missing
  | c :: _ =>
    let behind := place.skip 1
    if c ∈ ['?', '*', '+'] then
      if progress.repeatable then .ok (progress.item ((behind.behind? "?").getD behind))
      else missing
    else .ok (progress.item behind)

/-- Check what is left of a pattern. -/
def Progress.rest : (fuel : Nat) → Progress → Except PatternError Unit
  | fuel, progress =>
    match progress.place.ahead, fuel, progress.groups with
    | [], _, start :: _ => fail .groupUnclosed start (start + 1)
    | _ :: _, fuel + 1, _ => do rest fuel (← progress.step)
    | _, _, _ => .ok ()

/-- Check a pattern. Each step takes in a character or more. -/
def check (pattern : List Char) : Except PatternError Unit :=
  Progress.rest pattern.length { place := ⟨0, pattern⟩ }

end Pattern

end DialogueScript.Log
