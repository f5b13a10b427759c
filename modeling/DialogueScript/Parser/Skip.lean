import DialogueScript.Parser.Cursor

set_option autoImplicit false

/-!
# Skipping what lies too deep

Where blocks or calls are nested beyond the limit, the excess is passed over as a whole: a block
up to the word that ends it, a parenthesised group up to its closing parenthesis or the end of its
line.

## Main definitions

* `DialogueScript.Parser.skipBlock` — pass over a block.
* `DialogueScript.Parser.skipParenthesized` — pass over a parenthesised group.
-/

namespace DialogueScript

/-- The reserved words that open a block. -/
def blockOpeners : List String :=
  ["code", "if", "while", "switch"]

/-- The reserved words that close a block. -/
def blockClosers : List String :=
  ["endcode", "endif", "endwhile", "endswitch"]

/-- The tokens from the first boundary word on that lies in none of the blocks opened on the way,
when `depth` blocks are open already. -/
def tokensFromBoundary (boundaries : List String) : (depth : Nat) → List Token → List Token
  | _, [] => []
  | depth, token :: later =>
    if depth == 0 && token.isKeywordIn boundaries then token :: later
    else if token.isKeywordIn blockOpeners then tokensFromBoundary boundaries (depth + 1) later
    else if token.isKeywordIn blockClosers then tokensFromBoundary boundaries (depth - 1) later
    else tokensFromBoundary boundaries depth later

/-- The tokens behind a parenthesised group, when `depth` parentheses are open already. The group
does not reach beyond the given line. -/
def tokensAfterGroup (line : Nat) : (depth : Nat) → List Token → List Token
  | _, [] => []
  | depth, token :: later =>
    if token.line != line then token :: later
    else if token.isSymbol "(" then tokensAfterGroup line (depth + 1) later
    else if token.isSymbol ")" then
      if depth ≤ 1 then later else tokensAfterGroup line (depth - 1) later
    else tokensAfterGroup line depth later

namespace Parser

/-- Pass over a block and stop in front of the boundary word that ends it. -/
def skipBlock (boundaries : List String) : Parser Unit :=
  move fun cursor => { cursor with tokens := tokensFromBoundary boundaries 0 cursor.tokens }

/-- Pass over the parenthesised group that begins at the cursor, within the cursor's line. -/
def skipParenthesized : Parser Unit :=
  move fun cursor =>
    { cursor with tokens := tokensAfterGroup cursor.peek.line 0 cursor.tokens }

end Parser

end DialogueScript
