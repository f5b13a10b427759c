import DialogueScript.Parser.Skip
import DialogueScript.Script.Expr

set_option autoImplicit false

/-!
# Parsing expressions and conditions

The grammar has one level and no precedence:

    expr      ::= NAME "(" [expr ("," expr)* [","]] ")" | NAME | STRING | NUMBER | BOOLEAN
    condition ::= expr "=" expr

The argument `room` says how many more blocks and calls may be opened inside each other at the
cursor. A call that finds no room is reported and passed over. Recursion is on this number, so
that no parser here needs any other bound.

## Main definitions

* `DialogueScript.Parser.expression` — parse an expression.
* `DialogueScript.Parser.condition` — parse a condition.
-/

namespace DialogueScript.Parser

/-! ## Arguments -/

/-- The arguments of a call expression, up to the closing parenthesis. An argument that cannot be
read is left out, and reading goes on behind the next comma. -/
def argumentsWithin (item : Parser (Option Expr)) : (fuel : Nat) → Parser (List Expr)
  | 0 => pure []
  | fuel + 1 => do
    if ← look fun cursor => cursor.atEnd || cursor.peek.isSymbol ")" then
      return []
    let found ← item
    if ← takeSymbol "," then
      let later ← argumentsWithin item fuel
      return found.toList ++ later
    if ← atSymbol ")" then
      return found.toList
    report .argumentSeparator
    return found.toList

/-- A parenthesised list of arguments and the call that it makes. -/
def callArguments (item : Parser (Option Expr)) (name : String) : Parser (Option Expr) := do
  let _ ← takeSymbol "("
  let args ← fuelled (argumentsWithin item)
  if ← takeSymbol ")" then
    return some (.call name args)
  report .argumentsUnclosed
  return none

/-! ## Expressions -/

/-- The rest of a call for which there is no room: it is reported and passed over. -/
def callTooDeep : Parser (Option Expr) := do
  report .nestingTooDeep
  skipParenthesized
  return none

/-- An expression, given how the rest of a call behind its name is parsed. -/
def expressionWith (call : String → Parser (Option Expr)) : Parser (Option Expr) := do
  let token ← peek
  match token.kind with
  | .identifier =>
    let isCall ← nextIsSymbol "("
    let _ ← advance
    if isCall then call token.text else return some (.var token.text)
  | .string =>
    let _ ← advance
    return some (.literal .string token.text)
  | .number =>
    let _ ← advance
    return some (.literal .number token.text)
  | .boolean =>
    let _ ← advance
    return some (.literal .boolean token.text)
  | _ =>
    report .unsupportedExpression
    return none

/-- An expression with room for calls inside each other. A token that begins no expression is
reported and left where it is. -/
def expression : (room : Nat) → Parser (Option Expr)
  | 0 => expressionWith fun _ => callTooDeep
  | room + 1 => expressionWith (callArguments (expression room))

/-! ## Conditions -/

/-- A condition. There is always one; a side that cannot be read is left empty, and without a
left side the right one is not looked for. -/
def condition (operand : Parser (Option Expr)) : Parser Condition := do
  match ← operand with
  | none =>
    report .conditionLeft
    return ⟨none, .eq, none⟩
  | some left =>
    if ← takeSymbol "=" then
      match ← operand with
      | none =>
        report .conditionRight
        return ⟨some left, .eq, none⟩
      | some right => return ⟨some left, .eq, some right⟩
    else
      report .conditionEquals
      return ⟨some left, .eq, none⟩

end DialogueScript.Parser
