import DialogueScript.ParseError

set_option autoImplicit false

/-!
# Cursors and parsers

A parser walks once over the tokens, never backwards, and reports what it cannot read. It is a
function from a *cursor*, the tokens still ahead, to a result, the reports it adds, and the cursor
it leaves. Reports can only be added, which the type makes plain: a parser never sees the earlier
ones.

The input ends at the first end token. Whatever stands behind it is not part of the cursor, and
past the last token an end token is seen again and again.

## Main definitions

* `DialogueScript.Cursor` — the tokens ahead.
* `DialogueScript.Parser` — parsers, a monad.
* `DialogueScript.Parser.manyUntil` — repetition, bounded by the number of tokens ahead.
-/

namespace DialogueScript

/-- The tokens still ahead, and the line on which the input ends. -/
structure Cursor where
  /-- The tokens ahead; none of them is the end of the input. -/
  tokens : List Token
  /-- The line that is reported at the end of the input. -/
  endLine : Nat
  deriving DecidableEq, Repr

namespace Cursor

/-- The line of the end: that of the first end token; without one, that of the last token; and
the first line if there are no tokens at all. -/
def endLineOf (tokens : List Token) : Nat :=
  match tokens.find? fun token => token.kind == .eof with
  | some token => token.line
  | none =>
    match tokens.getLast? with
    | some token => token.line
    | none => 1

/-- The cursor at the beginning of a token list. -/
def start (tokens : List Token) : Cursor :=
  ⟨tokens.takeWhile fun token => token.kind != .eof, endLineOf tokens⟩

/-- The token at the cursor. -/
def peek (cursor : Cursor) : Token :=
  match cursor.tokens with
  | [] => Token.endOfInput cursor.endLine
  | token :: _ => token

/-- The cursor has reached the end of the input. -/
def atEnd (cursor : Cursor) : Bool :=
  cursor.tokens.isEmpty

/-- The token after the one at the cursor, if both exist, is the given symbol. -/
def nextIsSymbol (cursor : Cursor) (symbol : String) : Bool :=
  match cursor.tokens with
  | _ :: next :: _ => next.isSymbol symbol
  | _ => false

/-- The cursor behind the token at the cursor; at the end it stays. -/
def advance (cursor : Cursor) : Cursor :=
  { cursor with tokens := cursor.tokens.tail }

end Cursor

/-! ## The monad -/

/-- What a parser gives: a result, the reports it adds, and the cursor it leaves. -/
structure Parsed (α : Type) where
  /-- The result. -/
  value : α
  /-- The reports that were added, in order. -/
  errors : List ParseError
  /-- The cursor afterwards. -/
  rest : Cursor

/-- A parser. -/
def Parser (α : Type) : Type :=
  Cursor → Parsed α

namespace Parser

/-- Parsers one after the other: the second begins where the first has stopped, and the reports of
both are kept. -/
instance : Monad Parser where
  pure a := fun cursor => ⟨a, [], cursor⟩
  bind p f := fun cursor =>
    let first := p cursor
    let second := f first.value first.rest
    ⟨second.value, first.errors ++ second.errors, second.rest⟩

/-! ## Looking and moving -/

/-- Ask something about the cursor. -/
def look {α : Type} (f : Cursor → α) : Parser α :=
  fun cursor => ⟨f cursor, [], cursor⟩

/-- The token at the cursor. -/
def peek : Parser Token :=
  look Cursor.peek

/-- Has the end of the input been reached? -/
def atEnd : Parser Bool :=
  look Cursor.atEnd

/-- Is the given symbol at the cursor? -/
def atSymbol (symbol : String) : Parser Bool :=
  look fun cursor => cursor.peek.isSymbol symbol

/-- Is the given reserved word at the cursor, in any case? -/
def atKeyword (word : String) : Parser Bool :=
  look fun cursor => cursor.peek.isKeyword word

/-- Is a token of the given kind at the cursor? -/
def atKind (kind : TokenKind) : Parser Bool :=
  look fun cursor => cursor.peek.kind == kind

/-- Does the given symbol follow the token at the cursor? -/
def nextIsSymbol (symbol : String) : Parser Bool :=
  look fun cursor => cursor.nextIsSymbol symbol

/-- Take the token at the cursor. -/
def advance : Parser Token :=
  fun cursor => ⟨cursor.peek, [], cursor.advance⟩

/-- Move the cursor and do nothing else. -/
def move (f : Cursor → Cursor) : Parser Unit :=
  fun cursor => ⟨(), [], f cursor⟩

/-- Take the given symbol if it is at the cursor, and tell whether it was. -/
def takeSymbol (symbol : String) : Parser Bool := do
  if ← atSymbol symbol then
    let _ ← advance
    return true
  else
    return false

/-- Take the given reserved word if it is at the cursor, and tell whether it was. -/
def takeKeyword (word : String) : Parser Bool := do
  if ← atKeyword word then
    let _ ← advance
    return true
  else
    return false

/-- Report a fault on the line of the token at the cursor. -/
def report (fault : Fault) : Parser Unit :=
  fun cursor => ⟨(), [⟨cursor.peek.line, fault⟩], cursor⟩

/-! ## Repetition -/

/-- Repeat a parser at most `fuel` times, until the cursor satisfies `stop` or is at the end, and
keep what it found. -/
def manyWithin {α : Type} (stop : Cursor → Bool) (item : Parser (Option α)) :
    (fuel : Nat) → Parser (List α)
  | 0 => pure []
  | fuel + 1 => do
    if ← look fun cursor => cursor.atEnd || stop cursor then
      return []
    else
      let found ← item
      let later ← manyWithin stop item fuel
      return found.toList ++ later

/-- Give a parser as much fuel as there are tokens ahead. A loop that takes a token in each round
never uses it up. -/
def fuelled {α : Type} (p : Nat → Parser α) : Parser α :=
  fun cursor => p cursor.tokens.length cursor

/-- Repeat a parser until the cursor satisfies `stop` or is at the end, and keep what it found.
Every round takes at least one token. -/
def manyUntil {α : Type} (stop : Cursor → Bool) (item : Parser (Option α)) :
    Parser (List α) :=
  fuelled (manyWithin stop item)

end Parser

end DialogueScript
