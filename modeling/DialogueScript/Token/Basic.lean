import DialogueScript.Text.Ascii

set_option autoImplicit false

/-!
# Tokens

The words of the language. A token has a kind, the text it was read from, and the line it stands
on, counted from one. Strings are kept without their quotes, and the text of a Boolean is in
small letters.

## Main definitions

* `DialogueScript.TokenKind`, `DialogueScript.Token` — tokens.
* `DialogueScript.Token.isSymbol`, `DialogueScript.Token.isKeyword` — the tests a parser makes.
* `DialogueScript.Token.shown` — how a token is shown to the user.
-/

namespace DialogueScript

/-- What sort of word a token is. -/
inductive TokenKind
  /-- A reserved word such as `if` or `endif`. -/
  | keyword
  /-- The name of a variable or function, and whatever fits no other kind. -/
  | identifier
  /-- A quoted text. -/
  | string
  /-- A run of decimal digits. -/
  | number
  /-- One of the symbols `(`, `)`, `,` and `=`. -/
  | symbol
  /-- The word `true` or `false`. -/
  | boolean
  /-- The end of a line that declares variables. -/
  | newline
  /-- The end of the input. -/
  | eof
  deriving DecidableEq, Repr, Inhabited

/-- The name of a kind in capitals, as shown to the user. -/
def TokenKind.label : TokenKind → String
  | .keyword => "KEYWORD"
  | .identifier => "IDENTIFIER"
  | .string => "STRING"
  | .number => "NUMBER"
  | .symbol => "SYMBOL"
  | .boolean => "BOOLEAN"
  | .newline => "NEWLINE"
  | .eof => "EOF"

/-- A word of the source, with the line it stands on. -/
structure Token where
  /-- What sort of word it is. -/
  kind : TokenKind
  /-- Its text; a string's is without the quotes. -/
  text : String
  /-- Its line, counted from one. -/
  line : Nat
  deriving DecidableEq, Repr, Inhabited

namespace Token

/-- The end of the input, on a given line. -/
def endOfInput (line : Nat) : Token :=
  ⟨.eof, "", line⟩

/-- The token is the given symbol. -/
def isSymbol (token : Token) (symbol : String) : Bool :=
  token.kind == .symbol && token.text == symbol

/-- The token is the given reserved word, in any case of its letters. Block boundaries are found
this way. -/
def isKeyword (token : Token) (word : String) : Bool :=
  token.kind == .keyword && Text.sameFolded token.text word

/-- The token is one of the given reserved words, in any case of their letters. -/
def isKeywordIn (token : Token) (words : List String) : Bool :=
  token.kind == .keyword && Text.isOneOfFolded token.text words

end Token

/-- A kind and a text as shown to the user: the kind's label and the text in single quotes. -/
def TokenKind.shownWith (kind : TokenKind) (text : String) : String :=
  kind.label ++ " '" ++ text ++ "'"

/-- A token as shown to the user. -/
def Token.shown (token : Token) : String :=
  token.kind.shownWith token.text

/-- The reserved words, spelled in small letters. -/
def reservedWords : List String :=
  ["code", "endcode", "global", "local", "if", "else", "endif", "exitcode", "switch", "case",
    "endswitch", "while", "endwhile", "return"]

end DialogueScript
