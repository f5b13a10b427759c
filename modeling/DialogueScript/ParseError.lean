import DialogueScript.Text.Integer
import DialogueScript.Token.Basic

set_option autoImplicit false

/-!
# Faults of a source text

Reading a script never fails: whatever cannot be read is reported and skipped. A report names the
line where it was noticed and its cause; the wording is derived from the cause alone.

## Main definitions

* `DialogueScript.Fault` — the causes.
* `DialogueScript.ParseError` — a cause and a line.
* `DialogueScript.ParseError.message` — a report as shown to the user.
-/

namespace DialogueScript

/-- What can be wrong with a source text. -/
inductive Fault
  /-- A quoted text runs into the end of its line. -/
  | unterminatedString
  /-- A statement begins with a reserved word that opens none. -/
  | unknownKeyword (word : String)
  /-- A statement begins with a token that is neither a reserved word nor a name. -/
  | unexpectedToken (kind : TokenKind) (text : String)
  /-- Blocks and calls lie too deep inside each other. -/
  | nestingTooDeep
  /-- No expression begins with this token. -/
  | unsupportedExpression
  /-- An argument in a call expression is followed by neither a comma nor a parenthesis. -/
  | argumentSeparator
  /-- The arguments of a call are not closed. -/
  | argumentsUnclosed
  /-- The left side of a condition cannot be read. -/
  | conditionLeft
  /-- A condition lacks its equals sign. -/
  | conditionEquals
  /-- The right side of a condition cannot be read. -/
  | conditionRight
  /-- The right side of an assignment cannot be read. -/
  | assignmentValue
  /-- A call statement lacks its opening parenthesis. -/
  | callStatementOpening
  /-- The word `code` is not followed by a name. -/
  | functionName
  /-- A function declaration is not closed. -/
  | functionUnclosed
  /-- Something other than a name stands among the parameters. -/
  | parameterName
  /-- A parameter is followed by neither a comma nor a parenthesis. -/
  | parameterSeparator
  /-- The parameters are not closed. -/
  | parametersUnclosed
  /-- The word `global` is not followed by a name. -/
  | globalNames
  /-- An `if` is not closed. -/
  | ifUnclosed
  /-- A `while` is not closed. -/
  | whileUnclosed
  /-- The selector of a `switch` cannot be read. -/
  | switchSelector
  /-- Something other than a case stands directly in a `switch`. -/
  | switchItem
  /-- A `switch` is not closed. -/
  | switchUnclosed
  /-- The value of a case cannot be read. -/
  | caseValue
  deriving DecidableEq, Repr

/-- The wording of a cause. -/
def Fault.message : Fault → String
  | .unterminatedString => "Unterminated string"
  | .unknownKeyword word => "Unknown keyword: " ++ word
  | .unexpectedToken kind text =>
    "Cannot parse statement. Unexpected token: " ++ kind.shownWith text
  | .nestingTooDeep => "Nesting too deep"
  | .unsupportedExpression => "Unsupported expression format"
  | .argumentSeparator => "Expected ',' or ')' in function call arguments"
  | .argumentsUnclosed => "Missing ')' after function call arguments"
  | .conditionLeft => "Could not parse left side of if condition"
  | .conditionEquals => "Expected '=' in if condition"
  | .conditionRight => "Could not parse right side of if condition"
  | .assignmentValue => "Failed to parse right-hand side expression in assignment"
  | .callStatementOpening => "Expected '(' after function name in function call statement"
  | .functionName => "Expected identifier after 'code'"
  | .functionUnclosed => "Missing 'endcode' after function declaration"
  | .parameterName => "Expected an identifier in parameter list"
  | .parameterSeparator => "Expected ',' or ')' in parameter list"
  | .parametersUnclosed => "Missing ')' after parameter list"
  | .globalNames => "Expected at least one identifier after 'global'"
  | .ifUnclosed => "Missing 'endif' after if/else block"
  | .whileUnclosed => "Missing 'endwhile' after while block"
  | .switchSelector => "Could not parse expression after 'switch'"
  | .switchItem => "Expected 'case' or 'endswitch' in switch block"
  | .switchUnclosed => "Missing 'endswitch' after switch block"
  | .caseValue => "Failed to parse case value expression"

/-- A report: what is wrong, and on which line it was noticed. -/
structure ParseError where
  /-- The line, counted from one. -/
  line : Nat
  /-- The cause. -/
  fault : Fault
  deriving DecidableEq, Repr

/-- A report as shown to the user. -/
def ParseError.message (error : ParseError) : String :=
  "[Line " ++ Text.natText error.line ++ "] Error: " ++ error.fault.message

end DialogueScript
