import DialogueScript.ParseError
import DialogueScript.Text.Lines
import DialogueScript.Token.Lexeme

set_option autoImplicit false

/-!
# From source text to tokens

Each line is read on its own. Its lexemes become tokens, a chunk being sorted by its spelling. A
line that begins with `global` or `local` is followed by a newline token, because the list of
names that it declares has no other end. After the last line stands the end of the input, one
line further down.

The only fault at this stage is a quoted text that is not closed; it is reported and kept.

## Main definitions

* `DialogueScript.Token.ofChunk` — the kind of a chunk.
* `DialogueScript.Token.ofLine` — the tokens of a line.
* `DialogueScript.Lexed.ofSource` — the tokens and the reports of a source text.
-/

namespace DialogueScript

namespace Token

/-! ## Sorting chunks -/

/-- The reserved words that may be written in any case; they are kept in small letters. -/
def caselessWords : List String :=
  ["switch", "case", "endswitch"]

/-- The token of a chunk. Boolean words come first, then the reserved words as they are spelled,
then numbers, then the reserved words that may be written in any case; the rest are names. -/
def ofChunk (line : Nat) (cs : List Char) : Token :=
  let text := String.ofList cs
  if Text.isOneOfFolded text ["true", "false"] then
    ⟨.boolean, String.ofList (Text.foldCase cs), line⟩
  else if reservedWords.contains text then ⟨.keyword, text, line⟩
  else if cs.all Char.isDigit then ⟨.number, text, line⟩
  else if Text.isOneOfFolded text caselessWords then
    ⟨.keyword, String.ofList (Text.foldCase cs), line⟩
  else ⟨.identifier, text, line⟩

/-- The token of a lexeme. -/
def ofLexeme (line : Nat) : Lexeme → Token
  | .symbol c => ⟨.symbol, String.ofList [c], line⟩
  | .chunk text => ofChunk line text
  | .quoted text _ => ⟨.string, String.ofList text, line⟩

/-! ## Lines -/

/-- The tokens begin with the text `global` or `local`, so that the list of names after it has to
be ended by hand. -/
def startsDeclaration : List Token → Bool
  | [] => false
  | first :: _ => first.text == "global" || first.text == "local"

/-- The tokens of a line, with the newline token that ends a declaration. -/
def ofLine (line : Nat) (cs : List Char) : List Token :=
  let tokens := (Lexeme.ofLine cs).map (ofLexeme line)
  if startsDeclaration tokens then tokens ++ [⟨.newline, "", line⟩] else tokens

end Token

/-- The reports on a line: one if a quoted text runs into its end. -/
def ParseError.ofLine (line : Nat) (cs : List Char) : List ParseError :=
  if (Lexeme.ofLine cs).any Lexeme.isUnclosed then [⟨line, .unterminatedString⟩] else []

/-! ## Whole sources -/

/-- The tokens of a source text and what was wrong with it. -/
structure Lexed where
  /-- The tokens, ending with the end of the input. -/
  tokens : List Token
  /-- The reports, by increasing line. -/
  errors : List ParseError

namespace Lexed

/-- The tokens of some lines, the first of which has the given number. -/
def ofLines (line : Nat) : List (List Char) → Lexed
  | [] => ⟨[Token.endOfInput line], []⟩
  | cs :: later =>
    let rest := ofLines (line + 1) later
    ⟨Token.ofLine line cs ++ rest.tokens, ParseError.ofLine line cs ++ rest.errors⟩

/-- The tokens of a source text. -/
def ofSource (source : String) : Lexed :=
  ofLines 1 (Text.lines source.toList)

end Lexed

end DialogueScript
