import DialogueScript.Parser.Expression
import DialogueScript.Script.Stmt

set_option autoImplicit false

/-!
# Parsing statements

A statement is chosen by its first token. A reserved word selects a form, and here it has to be
spelled in small letters; the words that end a block are recognised in any case. A name begins an
assignment if an equals sign follows and a call otherwise. A statement that cannot be read is
reported and gives nothing, and parsing goes on behind what was looked at.

Every form is parsed by a function of its own that is handed two parsers: one for expressions and
one for blocks. `statement` ties them together by recursion on the room that is left for nesting.

## Main definitions

* `DialogueScript.Parser.statement` — parse a statement.
* `DialogueScript.Parser.nestingLimit` — how many blocks and calls may lie inside each other.
* `DialogueScript.Parser.program` — parse everything up to the end of the input.
-/

namespace DialogueScript.Parser

/-! ## Simple statements -/

/-- Report a fault and give up on a statement. -/
def giveUp {α : Type} (fault : Fault) : Parser (Option α) := do
  report fault
  return none

/-- An assignment; the cursor is at the name, and an equals sign follows. -/
def assignment (expr : Parser (Option Expr)) : Parser (Option Stmt) := do
  let name ← advance
  let _ ← advance
  match ← expr with
  | some value => return some (.assign name.text value)
  | none => giveUp .assignmentValue

/-- The arguments of a call statement. They end at the first that cannot be read. -/
def statementArgumentsWithin (item : Parser (Option Expr)) : (fuel : Nat) → Parser (List Expr)
  | 0 => pure []
  | fuel + 1 => do
    if ← look fun cursor => cursor.atEnd || cursor.peek.isSymbol ")" then
      return []
    match ← item with
    | none => return []
    | some arg =>
      if ← takeSymbol "," then
        let later ← statementArgumentsWithin item fuel
        return arg :: later
      return [arg]

/-- A call statement; the cursor is at the name. -/
def callStatement (expr : Parser (Option Expr)) : Parser (Option Stmt) := do
  let name ← advance
  if ← takeSymbol "(" then
    let args ← fuelled (statementArgumentsWithin expr)
    if ← takeSymbol ")" then
      return some (.call name.text args)
    giveUp .argumentsUnclosed
  else
    giveUp .callStatementOpening

/-- A run of names and commas. -/
def nameListWithin : (fuel : Nat) → Parser (List String)
  | 0 => pure []
  | fuel + 1 => do
    if ← atKind .identifier then
      let name ← advance
      let later ← nameListWithin fuel
      return name.text :: later
    if ← takeSymbol "," then
      nameListWithin fuel
    else
      return []

/-- A declaration of variables of the whole program, which needs at least one name. -/
def globalDeclaration : Parser (Option Stmt) := do
  let _ ← advance
  let names ← fuelled nameListWithin
  if names.isEmpty then giveUp .globalNames else return some (.globals names)

/-- A declaration of variables of the current call. -/
def localDeclaration : Parser (Option Stmt) := do
  let _ ← advance
  let names ← fuelled nameListWithin
  return some (.locals names)

/-- A return statement. Its value has to begin on the line of the reserved word. -/
def returnStatement (expr : Parser (Option Expr)) : Parser (Option Stmt) := do
  let word ← advance
  if ← look fun cursor => !cursor.atEnd && cursor.peek.line == word.line then
    let value ← expr
    return some (.ret value)
  return some (.ret none)

/-! ## Statements with blocks -/

/-- One parameter; anything but a name is reported and left where it is. -/
def parameter : Parser (Option String) := do
  if ← atKind .identifier then
    let name ← advance
    return some name.text
  giveUp .parameterName

/-- The parameters of a function declaration, up to the closing parenthesis. -/
def parametersWithin : (fuel : Nat) → Parser (List String)
  | 0 => pure []
  | fuel + 1 => do
    if ← look fun cursor => cursor.atEnd || cursor.peek.isSymbol ")" then
      return []
    let found ← parameter
    if ← takeSymbol "," then
      let later ← parametersWithin fuel
      return found.toList ++ later
    if ← atSymbol ")" then
      return found.toList
    report .parameterSeparator
    return found.toList

/-- The parameter list of a function declaration; without parentheses there are no parameters. -/
def parameterList : Parser (List String) := do
  if ← takeSymbol "(" then
    let params ← fuelled parametersWithin
    if ← takeSymbol ")" then
      return params
    report .parametersUnclosed
    return params
  return []

/-- A function declaration. -/
def functionDeclaration (block : List String → Parser (List Stmt)) : Parser (Option Stmt) := do
  let _ ← advance
  if ← atKind .identifier then
    let name ← advance
    let params ← parameterList
    let body ← block ["endcode"]
    if ← takeKeyword "endcode" then
      return some (.declare name.text params body)
    giveUp .functionUnclosed
  else
    giveUp .functionName

/-- The block behind `else`, if that word is at the cursor. -/
def elseBlock (block : List String → Parser (List Stmt)) : Parser (List Stmt) := do
  if ← takeKeyword "else" then block ["endif"] else return []

/-- A branch. -/
def branchStatement (expr : Parser (Option Expr)) (block : List String → Parser (List Stmt)) :
    Parser (Option Stmt) := do
  let _ ← advance
  let guard ← condition expr
  let thenBody ← block ["else", "endif"]
  let elseBody ← elseBlock block
  if ← takeKeyword "endif" then
    return some (.branch guard thenBody elseBody)
  giveUp .ifUnclosed

/-- A loop. -/
def loopStatement (expr : Parser (Option Expr)) (block : List String → Parser (List Stmt)) :
    Parser (Option Stmt) := do
  let _ ← advance
  let guard ← condition expr
  let body ← block ["endwhile"]
  if ← takeKeyword "endwhile" then
    return some (.loop guard body)
  giveUp .whileUnclosed

/-- What stands directly in a `switch`: a case, or a token that is reported and passed over. -/
def switchItem (expr : Parser (Option Expr)) (block : List String → Parser (List Stmt)) :
    Parser (Option CaseBlock) := do
  if ← takeKeyword "case" then
    match ← expr with
    | some value =>
      let body ← block ["case", "endswitch"]
      return some ⟨value, body⟩
    | none => giveUp .caseValue
  else
    report .switchItem
    let _ ← advance
    return none

/-- A choice between cases. -/
def switchStatement (expr : Parser (Option Expr)) (block : List String → Parser (List Stmt)) :
    Parser (Option Stmt) := do
  let _ ← advance
  match ← expr with
  | some selector =>
    let cases ← manyUntil (fun cursor => cursor.peek.isKeyword "endswitch")
      (switchItem expr block)
    if ← takeKeyword "endswitch" then
      return some (.select selector cases)
    giveUp .switchUnclosed
  | none => giveUp .switchSelector

/-! ## All statements -/

/-- A statement that begins with the given reserved word. -/
def keywordStatement (expr : Parser (Option Expr)) (block : List String → Parser (List Stmt))
    (word : String) : Parser (Option Stmt) :=
  if word = "code" then functionDeclaration block
  else if word = "global" then globalDeclaration
  else if word = "local" then localDeclaration
  else if word = "exitcode" then do
    let _ ← advance
    return some .exitCode
  else if word = "if" then branchStatement expr block
  else if word = "switch" then switchStatement expr block
  else if word = "while" then loopStatement expr block
  else if word = "return" then returnStatement expr
  else do
    report (.unknownKeyword word)
    let _ ← advance
    return none

/-- A statement, given how expressions and blocks are parsed. A newline token is passed over. -/
def statementWith (expr : Parser (Option Expr)) (block : List String → Parser (List Stmt)) :
    Parser (Option Stmt) := do
  let token ← peek
  match token.kind with
  | .keyword => keywordStatement expr block token.text
  | .identifier =>
    if ← nextIsSymbol "=" then assignment expr else callStatement expr
  | .newline =>
    let _ ← advance
    return none
  | kind =>
    report (.unexpectedToken kind token.text)
    let _ ← advance
    return none

/-- A block for which there is no room: it is reported and passed over. -/
def blockTooDeep (boundaries : List String) : Parser (List Stmt) := do
  report .nestingTooDeep
  skipBlock boundaries
  return []

/-- Statements up to one of the boundary words, which is left where it is. -/
def blockOf (item : Parser (Option Stmt)) (boundaries : List String) : Parser (List Stmt) :=
  manyUntil (fun cursor => cursor.peek.isKeywordIn boundaries) item

/-- A statement with room for blocks and calls inside each other. -/
def statement : (room : Nat) → Parser (Option Stmt)
  | 0 => statementWith (expression 0) blockTooDeep
  | room + 1 => statementWith (expression (room + 1)) (blockOf (statement room))

/-- A block with room for blocks and calls inside each other, its own place included. -/
def block : (room : Nat) → List String → Parser (List Stmt)
  | 0 => blockTooDeep
  | room + 1 => blockOf (statement room)

/-- With any room, a statement is parsed with that room for the blocks and the calls in it. -/
theorem statement_eq (room : Nat) :
    statement room = statementWith (expression room) (block room) := by
  cases room <;> rfl

/-- At most so many blocks and calls may lie inside each other. -/
def nestingLimit : Nat :=
  64

/-- All statements up to the end of the input. -/
def program : Parser (List Stmt) :=
  manyUntil (fun _ => false) (statement nestingLimit)

end DialogueScript.Parser
