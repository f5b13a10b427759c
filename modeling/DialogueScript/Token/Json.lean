import DialogueScript.Json.Basic
import DialogueScript.Token.Basic

set_option autoImplicit false

/-!
# Tokens as JSON

## Main definitions

* `DialogueScript.Token.toJson`, `DialogueScript.Token.ofJson?` — a token as an object with its
  kind, text and line.
-/

namespace DialogueScript

/-- The tag of a kind. -/
def TokenKind.tag : TokenKind → String
  | .keyword => "Keyword"
  | .identifier => "Identifier"
  | .string => "String"
  | .number => "Number"
  | .symbol => "Symbol"
  | .boolean => "Boolean"
  | .newline => "Newline"
  | .eof => "Eof"

/-- All kinds of tokens. -/
def TokenKind.all : List TokenKind :=
  [.keyword, .identifier, .string, .number, .symbol, .boolean, .newline, .eof]

/-- The kind with the given tag. -/
def TokenKind.ofTag? (tag : String) : Option TokenKind :=
  TokenKind.all.find? fun kind => kind.tag == tag

/-- Read a kind. -/
def TokenKind.ofJson? (json : Json) : Option TokenKind :=
  match json.variant? with
  | some (tag, .null) => TokenKind.ofTag? tag
  | _ => none

/-- Write a token. -/
def Token.toJson (token : Token) : Json :=
  .object [("kind", .string token.kind.tag), ("text", .string token.text),
    ("line", Json.ofNat token.line)]

/-- The numbers that a 64-bit word without sign holds. -/
def fitsWord (n : Nat) : Bool :=
  decide (n < UInt64.size)

/-- Read a token. -/
def Token.ofJson? (json : Json) : Option Token := do
  let kind ← TokenKind.ofJson? (← json.field? "kind")
  let text ← (← json.field? "text").string?
  let line ← (← json.field? "line").nat?
  if fitsWord line then return ⟨kind, text, line⟩ else none

end DialogueScript
