import DialogueScript.Parser.Statement

set_option autoImplicit false

/-!
# A parsing machine

A parser that walks over the tokens by hand. Its state is the number of the token it looks at, the
number of blocks and calls it is in, and the reports so far. It counts the depth up and down itself,
and it reads the last token it took back from the list. It could go wrong where a parser on cursors
cannot: it may run past the tokens, loop in one place, forget to count down, or lose a report.

The functions are those of the parser on cursors, and they call each other in the same way. Every
round of a loop and every recursive call uses up one unit of fuel. Fuel says nothing about the
tokens: a loop that stays in one place has no result with any fuel, and neither has a step that
reads a token that is not there.

## Main definitions

* `DialogueScript.Machine`, `DialogueScript.MachineM` — the states and the steps.
* `DialogueScript.Machine.expression`, `DialogueScript.Machine.statement`,
  `DialogueScript.Machine.block` — the parts of a program.
* `DialogueScript.Machine.start`, `DialogueScript.Machine.parse` — a whole program.
-/

namespace DialogueScript

/-- The state of a parsing machine. -/
structure Machine where
  /-- The number of the token it looks at. -/
  position : Nat
  /-- How many blocks and calls it is in. -/
  depth : Nat
  /-- The reports so far. -/
  errors : List ParseError
  deriving DecidableEq, Repr

/-- A step of a parsing machine, which may have no result. -/
abbrev MachineM (α : Type) : Type :=
  StateT Machine Option α

namespace Machine

variable (tokens : List Token)

/-! ## Looking and moving -/

/-- The token it looks at; behind the last token there is one that ends the input. -/
def peek : MachineM Token := do
  let m ← get
  return tokens[m.position]?.getD
    (Token.endOfInput ((tokens.getLast?.map fun token => token.line).getD 1))

/-- Does the machine look at the end of the input? -/
def atEnd : MachineM Bool := do
  let token ← peek tokens
  return token.kind == .eof

/-- The token it took last; where it has taken none, the one it looks at. -/
def previous : MachineM Token := do
  let m ← get
  match m.position with
  | 0 => peek tokens
  | k + 1 => StateT.lift tokens[k]?

/-- Take a token, unless the input has ended. -/
def advance : MachineM Token := do
  if ← atEnd tokens then
    previous tokens
  else
    modify fun m => { m with position := m.position + 1 }
    previous tokens

/-- Is the next token but one the given symbol? -/
def nextIsSymbol (symbol : String) : MachineM Bool := do
  let m ← get
  return tokens[m.position + 1]?.any fun next => next.isSymbol symbol

/-- Does the machine look at a token of the given kind, and not at the end? -/
def atKind (kind : TokenKind) : MachineM Bool := do
  let ended ← atEnd tokens
  let token ← peek tokens
  return !ended && token.kind == kind

/-- Does the machine look at the given symbol? -/
def atSymbol (symbol : String) : MachineM Bool := do
  let ended ← atEnd tokens
  let token ← peek tokens
  return !ended && token.isSymbol symbol

/-- Does the machine look at the given reserved word, in any case? -/
def atKeyword (word : String) : MachineM Bool := do
  let ended ← atEnd tokens
  let token ← peek tokens
  return !ended && token.isKeyword word

/-- Does the machine look at a token on the given line, and not at the end? -/
def atLine (line : Nat) : MachineM Bool := do
  let ended ← atEnd tokens
  let token ← peek tokens
  return !ended && token.line == line

/-- Does the machine look at the end of the input or at one of the given reserved words? -/
def atBoundary (words : List String) : MachineM Bool := do
  let ended ← atEnd tokens
  let token ← peek tokens
  return ended || token.isKeywordIn words

/-- Does the machine look at the end of the input or at a closing parenthesis? -/
def atListEnd : MachineM Bool := do
  let ended ← atEnd tokens
  let closing ← atSymbol tokens ")"
  return ended || closing

/-- Take the given symbol if it is there. -/
def takeSymbol (symbol : String) : MachineM Bool := do
  if ← atSymbol tokens symbol then
    let _ ← advance tokens
    return true
  else
    return false

/-- Take the given reserved word if it is there. -/
def takeKeyword (word : String) : MachineM Bool := do
  if ← atKeyword tokens word then
    let _ ← advance tokens
    return true
  else
    return false

/-- Report a fault on a line. -/
def reportAt (line : Nat) (fault : Fault) : MachineM Unit :=
  modify fun m => { m with errors := m.errors ++ [⟨line, fault⟩] }

/-- Report a fault on the line of the token it looks at. -/
def report (fault : Fault) : MachineM Unit := do
  let token ← peek tokens
  reportAt token.line fault

/-- Report a fault and give up on something. -/
def giveUp {α : Type} (fault : Fault) : MachineM (Option α) := do
  report tokens fault
  return none

/-- Count a block or a call. -/
def deeper : MachineM Unit :=
  modify fun m => { m with depth := m.depth + 1 }

/-- The block or the call is over. -/
def shallower : MachineM Unit :=
  modify fun m => { m with depth := m.depth - 1 }

/-! ## Passing over -/

/-- Pass over a block, when so many blocks are open already. -/
def skipBlock (boundaries : List String) : (level fuel : Nat) → MachineM Unit
  | _, 0 => failure
  | level, fuel + 1 => do
    if ← atEnd tokens then
      return ()
    else
      let token ← peek tokens
      if level == 0 && token.isKeywordIn boundaries then
        return ()
      else if token.isKeywordIn blockOpeners then
        let _ ← advance tokens
        skipBlock boundaries (level + 1) fuel
      else if token.isKeywordIn blockClosers then
        let _ ← advance tokens
        skipBlock boundaries (level - 1) fuel
      else
        let _ ← advance tokens
        skipBlock boundaries level fuel

/-- Pass over a parenthesised group on a line, when so many parentheses are open already. -/
def skipGroup (line : Nat) : (level fuel : Nat) → MachineM Unit
  | _, 0 => failure
  | level, fuel + 1 => do
    let ended ← atEnd tokens
    let token ← peek tokens
    if ended || token.line != line then
      return ()
    else if token.isSymbol "(" then
      let _ ← advance tokens
      skipGroup line (level + 1) fuel
    else if token.isSymbol ")" then
      let _ ← advance tokens
      if level ≤ 1 then return () else skipGroup line (level - 1) fuel
    else
      let _ ← advance tokens
      skipGroup line level fuel

/-! ## Expressions -/

mutual

/-- An expression. -/
def expression : (fuel : Nat) → MachineM (Option Expr)
  | 0 => failure
  | fuel + 1 => do
    let token ← peek tokens
    match token.kind with
    | .identifier =>
      if ← nextIsSymbol tokens "(" then
        callExpression fuel
      else
        let _ ← advance tokens
        return some (.var token.text)
    | .string =>
      let _ ← advance tokens
      return some (.literal .string token.text)
    | .number =>
      let _ ← advance tokens
      return some (.literal .number token.text)
    | .boolean =>
      let _ ← advance tokens
      return some (.literal .boolean token.text)
    | _ =>
      reportAt token.line .unsupportedExpression
      return none

/-- A call of a function; the machine looks at its name, and a parenthesis follows. -/
def callExpression : (fuel : Nat) → MachineM (Option Expr)
  | 0 => failure
  | fuel + 1 => do
    let name ← advance tokens
    let m ← get
    if Parser.nestingLimit ≤ m.depth then
      report tokens .nestingTooDeep
      let opening ← peek tokens
      skipGroup tokens opening.line 0 fuel
      return none
    else
      deeper
      let call ← callArguments name.text fuel
      shallower
      return call

/-- The arguments of a call, in parentheses. -/
def callArguments (name : String) : (fuel : Nat) → MachineM (Option Expr)
  | 0 => failure
  | fuel + 1 => do
    let _ ← takeSymbol tokens "("
    let args ← argumentLoop fuel
    if ← takeSymbol tokens ")" then
      return some (.call name args)
    else
      report tokens .argumentsUnclosed
      return none

/-- Arguments up to the closing parenthesis. -/
def argumentLoop : (fuel : Nat) → MachineM (List Expr)
  | 0 => failure
  | fuel + 1 => do
    if ← atListEnd tokens then
      return []
    else
      let found ← expression fuel
      if ← takeSymbol tokens "," then
        let later ← argumentLoop fuel
        return found.toList ++ later
      else if ← atSymbol tokens ")" then
        return found.toList
      else
        report tokens .argumentSeparator
        return found.toList

end

/-- A condition. -/
def condition (fuel : Nat) : MachineM Condition := do
  match ← expression tokens fuel with
  | none =>
    report tokens .conditionLeft
    return ⟨none, .eq, none⟩
  | some left =>
    if ← takeSymbol tokens "=" then
      match ← expression tokens fuel with
      | none =>
        report tokens .conditionRight
        return ⟨some left, .eq, none⟩
      | some right => return ⟨some left, .eq, some right⟩
    else
      report tokens .conditionEquals
      return ⟨some left, .eq, none⟩

/-! ## Simple statements -/

/-- An assignment; the machine looks at the name, and an equals sign follows. -/
def assignment (fuel : Nat) : MachineM (Option Stmt) := do
  let name ← advance tokens
  let _ ← advance tokens
  match ← expression tokens fuel with
  | some value => return some (.assign name.text value)
  | none => giveUp tokens .assignmentValue

/-- The arguments of a call statement. -/
def statementArgumentLoop : (fuel : Nat) → MachineM (List Expr)
  | 0 => failure
  | fuel + 1 => do
    if ← atListEnd tokens then
      return []
    else
      match ← expression tokens fuel with
      | none => return []
      | some arg =>
        if ← takeSymbol tokens "," then
          let later ← statementArgumentLoop fuel
          return arg :: later
        else
          return [arg]

/-- A call statement; the machine looks at the name. -/
def callStatement (fuel : Nat) : MachineM (Option Stmt) := do
  let name ← advance tokens
  if ← takeSymbol tokens "(" then
    let args ← statementArgumentLoop tokens fuel
    if ← takeSymbol tokens ")" then
      return some (.call name.text args)
    else
      giveUp tokens .argumentsUnclosed
  else
    giveUp tokens .callStatementOpening

/-- A run of names and commas. -/
def nameLoop : (fuel : Nat) → MachineM (List String)
  | 0 => failure
  | fuel + 1 => do
    if ← atKind tokens .identifier then
      let name ← advance tokens
      let later ← nameLoop fuel
      return name.text :: later
    else if ← takeSymbol tokens "," then
      nameLoop fuel
    else
      return []

/-- A declaration of variables of the whole program. -/
def globalDeclaration (fuel : Nat) : MachineM (Option Stmt) := do
  let _ ← advance tokens
  let names ← nameLoop tokens fuel
  if names.isEmpty then giveUp tokens .globalNames else return some (.globals names)

/-- A declaration of variables of the current call. -/
def localDeclaration (fuel : Nat) : MachineM (Option Stmt) := do
  let _ ← advance tokens
  let names ← nameLoop tokens fuel
  return some (.locals names)

/-- A return statement; the machine looks at the reserved word. -/
def returnStatement (fuel : Nat) : MachineM (Option Stmt) := do
  let word ← advance tokens
  if ← atLine tokens word.line then
    let value ← expression tokens fuel
    return some (.ret value)
  else
    return some (.ret none)

/-- One parameter. -/
def parameter : MachineM (Option String) := do
  if ← atKind tokens .identifier then
    let name ← advance tokens
    return some name.text
  else
    giveUp tokens .parameterName

/-- Parameters up to the closing parenthesis. -/
def parameterLoop : (fuel : Nat) → MachineM (List String)
  | 0 => failure
  | fuel + 1 => do
    if ← atListEnd tokens then
      return []
    else
      let found ← parameter tokens
      if ← takeSymbol tokens "," then
        let later ← parameterLoop fuel
        return found.toList ++ later
      else if ← atSymbol tokens ")" then
        return found.toList
      else
        report tokens .parameterSeparator
        return found.toList

/-- The parameter list of a function declaration. -/
def parameterList (fuel : Nat) : MachineM (List String) := do
  if ← takeSymbol tokens "(" then
    let params ← parameterLoop tokens fuel
    if ← takeSymbol tokens ")" then
      return params
    else
      report tokens .parametersUnclosed
      return params
  else
    return []

/-! ## All statements -/

mutual

/-- A statement. -/
def statement : (fuel : Nat) → MachineM (Option Stmt)
  | 0 => failure
  | fuel + 1 => do
    let token ← peek tokens
    match token.kind with
    | .keyword => keywordStatement token fuel
    | .identifier =>
      if ← nextIsSymbol tokens "=" then assignment tokens fuel else callStatement tokens fuel
    | .newline =>
      let _ ← advance tokens
      return none
    | kind =>
      reportAt token.line (.unexpectedToken kind token.text)
      let _ ← advance tokens
      return none

/-- A statement that begins with a reserved word, at which the machine looks. -/
def keywordStatement (token : Token) : (fuel : Nat) → MachineM (Option Stmt)
  | 0 => failure
  | fuel + 1 =>
    if token.text = "code" then functionDeclaration fuel
    else if token.text = "global" then globalDeclaration tokens fuel
    else if token.text = "local" then localDeclaration tokens fuel
    else if token.text = "exitcode" then do
      let _ ← advance tokens
      return some .exitCode
    else if token.text = "if" then branchStatement fuel
    else if token.text = "switch" then switchStatement fuel
    else if token.text = "while" then loopStatement fuel
    else if token.text = "return" then returnStatement tokens fuel
    else do
      reportAt token.line (.unknownKeyword token.text)
      let _ ← advance tokens
      return none

/-- Statements up to one of the boundary words, unless they lie too deep. -/
def block (boundaries : List String) : (fuel : Nat) → MachineM (List Stmt)
  | 0 => failure
  | fuel + 1 => do
    let m ← get
    if Parser.nestingLimit ≤ m.depth then
      report tokens .nestingTooDeep
      skipBlock tokens boundaries 0 fuel
      return []
    else
      deeper
      let statements ← blockLoop boundaries fuel
      shallower
      return statements

/-- Statements up to one of the boundary words. -/
def blockLoop (boundaries : List String) : (fuel : Nat) → MachineM (List Stmt)
  | 0 => failure
  | fuel + 1 => do
    if ← atBoundary tokens boundaries then
      return []
    else
      let found ← statement fuel
      let later ← blockLoop boundaries fuel
      return found.toList ++ later

/-- A function declaration. -/
def functionDeclaration : (fuel : Nat) → MachineM (Option Stmt)
  | 0 => failure
  | fuel + 1 => do
    let _ ← advance tokens
    if ← atKind tokens .identifier then
      let name ← advance tokens
      let params ← parameterList tokens fuel
      let body ← block ["endcode"] fuel
      if ← takeKeyword tokens "endcode" then
        return some (.declare name.text params body)
      else
        giveUp tokens .functionUnclosed
    else
      giveUp tokens .functionName

/-- A branch. -/
def branchStatement : (fuel : Nat) → MachineM (Option Stmt)
  | 0 => failure
  | fuel + 1 => do
    let _ ← advance tokens
    let guard ← condition tokens fuel
    let thenBody ← block ["else", "endif"] fuel
    let elseBody ← elseBlock fuel
    if ← takeKeyword tokens "endif" then
      return some (.branch guard thenBody elseBody)
    else
      giveUp tokens .ifUnclosed

/-- The block behind `else`, if that word is there. -/
def elseBlock : (fuel : Nat) → MachineM (List Stmt)
  | 0 => failure
  | fuel + 1 => do
    if ← takeKeyword tokens "else" then block ["endif"] fuel else return []

/-- A loop. -/
def loopStatement : (fuel : Nat) → MachineM (Option Stmt)
  | 0 => failure
  | fuel + 1 => do
    let _ ← advance tokens
    let guard ← condition tokens fuel
    let body ← block ["endwhile"] fuel
    if ← takeKeyword tokens "endwhile" then
      return some (.loop guard body)
    else
      giveUp tokens .whileUnclosed

/-- A choice between cases. -/
def switchStatement : (fuel : Nat) → MachineM (Option Stmt)
  | 0 => failure
  | fuel + 1 => do
    let _ ← advance tokens
    match ← expression tokens fuel with
    | some selector =>
      let cases ← caseLoop fuel
      if ← takeKeyword tokens "endswitch" then
        return some (.select selector cases)
      else
        giveUp tokens .switchUnclosed
    | none => giveUp tokens .switchSelector

/-- What stands directly in a `switch`, up to the word that ends it. -/
def caseLoop : (fuel : Nat) → MachineM (List CaseBlock)
  | 0 => failure
  | fuel + 1 => do
    let ended ← atEnd tokens
    let closing ← atKeyword tokens "endswitch"
    if ended || closing then
      return []
    else
      let found ← switchItem fuel
      let later ← caseLoop fuel
      return found.toList ++ later

/-- A case, or a token that is reported and passed over. -/
def switchItem : (fuel : Nat) → MachineM (Option CaseBlock)
  | 0 => failure
  | fuel + 1 => do
    if ← takeKeyword tokens "case" then
      match ← expression tokens fuel with
      | some value =>
        let body ← block ["case", "endswitch"] fuel
        return some ⟨value, body⟩
      | none => giveUp tokens .caseValue
    else
      report tokens .switchItem
      let _ ← advance tokens
      return none

end

/-- Statements up to the end of the input. -/
def program : (fuel : Nat) → MachineM (List Stmt)
  | 0 => failure
  | fuel + 1 => do
    if ← atEnd tokens then
      return []
    else
      let found ← statement tokens fuel
      let later ← program fuel
      return found.toList ++ later

/-- The state at the beginning. -/
def start : Machine :=
  ⟨0, 0, []⟩

/-- Parse everything: the statements, and the state at the end. -/
def parse (fuel : Nat) : Option (List Stmt × Machine) :=
  program tokens fuel start

end Machine

end DialogueScript
