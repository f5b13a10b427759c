import DialogueScript.Text.Blank

set_option autoImplicit false

/-!
# Lexemes of a line

A line is cut at its first `//` and trimmed; what remains is split into *lexemes*: symbols,
quoted texts and chunks. Outside quotes blanks only separate. A chunk runs up to the next blank,
parenthesis, comma or quote, so an equals sign inside a chunk belongs to the chunk, and only one
at its beginning is a symbol. A quoted text has no escapes and ends at the next quote, or with the
line if there is none.

The splitter is a one-pass automaton: every character is looked at once, in one of three modes.

## Main definitions

* `DialogueScript.Lexeme` — symbols, chunks and quoted texts.
* `DialogueScript.Lexeme.scan` — the lexemes of a trimmed line.
* `DialogueScript.Lexeme.ofLine` — the lexemes of a source line.
-/

namespace DialogueScript

/-- A piece of a line: a symbol, a run of other characters, or a quoted text. -/
inductive Lexeme
  /-- A symbol of one character. -/
  | symbol (c : Char)
  /-- A maximal run that is neither symbol nor quoted. -/
  | chunk (text : List Char)
  /-- The text after a quote, and whether a second quote closed it. -/
  | quoted (text : List Char) (closed : Bool)
  deriving DecidableEq, Repr

namespace Lexeme

/-! ## Character classes -/

/-- The symbols that stand for themselves also in the middle of a chunk. -/
def isPunctuation (c : Char) : Bool :=
  c == '(' || c == ')' || c == ','

/-- The characters that are a lexeme of their own where a lexeme begins. -/
def isSymbolStart (c : Char) : Bool :=
  isPunctuation c || c == '='

/-! ## The automaton -/

/-- Where in a line the automaton is. What has been read of an unfinished lexeme is kept with
its last character first. -/
inductive Mode
  /-- Between two lexemes. -/
  | between
  /-- Inside a chunk. -/
  | inChunk (run : List Char)
  /-- Inside quotes. -/
  | inQuotes (run : List Char)

/-- The lexemes of the rest of a line, read from a mode. -/
def scanFrom : Mode → List Char → List Lexeme
  | .between, [] => []
  | .between, c :: cs =>
    if Text.isBlank c then scanFrom .between cs
    else if isSymbolStart c then symbol c :: scanFrom .between cs
    else if c == '"' then scanFrom (.inQuotes []) cs
    else scanFrom (.inChunk [c]) cs
  | .inChunk run, [] => [chunk run.reverse]
  | .inChunk run, c :: cs =>
    if Text.isBlank c then chunk run.reverse :: scanFrom .between cs
    else if isPunctuation c then chunk run.reverse :: symbol c :: scanFrom .between cs
    else if c == '"' then chunk run.reverse :: scanFrom (.inQuotes []) cs
    else scanFrom (.inChunk (c :: run)) cs
  | .inQuotes run, [] => [quoted run.reverse false]
  | .inQuotes run, c :: cs =>
    if c == '"' then quoted run.reverse true :: scanFrom .between cs
    else scanFrom (.inQuotes (c :: run)) cs

/-- The lexemes of a text. -/
def scan (cs : List Char) : List Lexeme :=
  scanFrom .between cs

/-! ## Lines -/

/-- A line up to its first `//`. Quotes do not protect the two slashes. -/
def cutComment : List Char → List Char
  | [] => []
  | '/' :: '/' :: _ => []
  | c :: cs => c :: cutComment cs

/-- The lexemes of a source line. -/
def ofLine (line : List Char) : List Lexeme :=
  scan (Text.trim (cutComment line))

/-- A quoted text that runs into the end of its line. -/
def isUnclosed : Lexeme → Bool
  | quoted _ closed => !closed
  | _ => false

end Lexeme

end DialogueScript
