import DialogueScript.Parser.Statement
import DialogueScript.Token.Lexer

set_option autoImplicit false

/-!
# Scripts

A script is a named list of statements together with everything that was wrong with its source.
Loading never fails: what cannot be read is skipped, and the rest is kept.

## Main definitions

* `DialogueScript.parseTokens` — the statements of a token list.
* `DialogueScript.Script` — a loaded script.
* `DialogueScript.Script.load` — loading a source text.
-/

namespace DialogueScript

/-- The statements of a token list and the reports on it. The list may lack its end token, and
whatever stands behind the first one is ignored. -/
def parseTokens (tokens : List Token) : List Stmt × List ParseError :=
  let parsed := Parser.program (Cursor.start tokens)
  (parsed.value, parsed.errors)

/-- A loaded script. -/
structure Script where
  /-- What the script is called in reports. -/
  id : String
  /-- Its statements outside any block. -/
  statements : List Stmt
  /-- What was wrong with its source: first with its lines, then with its statements. -/
  errors : List ParseError

namespace Script

/-- Load a source text. -/
def load (id source : String) : Script :=
  let lexed := Lexed.ofSource source
  let (statements, errors) := parseTokens lexed.tokens
  ⟨id, statements, lexed.errors ++ errors⟩

/-- Something was wrong with the source. -/
def hasErrors (script : Script) : Bool :=
  !script.errors.isEmpty

end Script

end DialogueScript
