import DialogueScript.Decimal.Read
import DialogueScript.Interpreter.Builtin
import DialogueScript.Script.Basic

set_option autoImplicit false

/-!
# Running scripts

Expressions are evaluated and statements executed by structural recursion on fuel: three mutually
recursive functions, for expressions, calls and statements, each of which hands one unit less to
the next. Lists of arguments and statements, conditions and cases are handled by ordinary
functions that are given the evaluator. A loop runs its body and then itself again with less fuel.

## Main definitions

* `DialogueScript.evaluate` — the value of an expression.
* `DialogueScript.callFunction` — calling a function by name.
* `DialogueScript.execute` — executing a statement.
* `DialogueScript.runStatements`, `DialogueScript.runScript` — executing statements in order.
-/

namespace DialogueScript

variable {σ : Type}

/-- How a statement ends: control goes on to the next one, or the function returns. -/
inductive Flow
  /-- Control goes on. -/
  | normal
  /-- The function returns a value. -/
  | returned (value : Value)

/-! ## Without recursion -/

/-- The value of a number literal: a double if there is a point in it, else an integer. -/
def numberValue? (text : String) : Option Value :=
  if text.toList.contains '.' then (Decimal.read? text.toList).map .float
  else (Text.readInt64? text.toList).map .integer

/-- The value of a literal. A number that denotes no value is reported and counts as `nil`. -/
def literalValue (kind : LiteralKind) (text : String) : Eval σ Value :=
  match kind with
  | .string => return .str text
  | .boolean => return .bool (Text.sameFolded text "true")
  | .number =>
    match numberValue? text with
    | some value => return value
    | none => do
      Eval.report (.invalidNumber text)
      return .nil

/-- The outcome of a comparison. -/
def BinaryOp.apply : BinaryOp → Value → Value → Bool
  | .eq, a, b => a.scriptEq b
  | .notEq, a, b => !a.scriptEq b
  | .greater, a, b => a.greaterThan b
  | .less, a, b => a.lessThan b
  | .and, a, b => a.isTruthy && b.isTruthy

/-- The value of an operand; a missing one is `nil`. -/
def operandValue (eval : Expr → Eval σ Value) : Option Expr → Eval σ Value
  | none => return .nil
  | some expr => eval expr

/-- The outcome of a comparison of two operands. Both are always evaluated, the left one first. -/
def comparisonValue (eval : Expr → Eval σ Value) (left : Option Expr) (op : BinaryOp)
    (right : Option Expr) : Eval σ Value := do
  let a ← operandValue eval left
  let b ← operandValue eval right
  return .bool (op.apply a b)

/-- The value of a condition. -/
def conditionValue (eval : Expr → Eval σ Value) (condition : Condition) : Eval σ Value :=
  comparisonValue eval condition.left condition.op condition.right

/-- The values of some expressions, evaluated from left to right. -/
def valuesOf (eval : Expr → Eval σ Value) : List Expr → Eval σ (List Value)
  | [] => return []
  | expr :: later => do
    let value ← eval expr
    let values ← valuesOf eval later
    return value :: values

/-- Execute statements in order until one returns. -/
def runAll (exec : Stmt → Eval σ Flow) : List Stmt → Eval σ Flow
  | [] => return .normal
  | stmt :: later => do
    match ← exec stmt with
    | .normal => runAll exec later
    | .returned value => return .returned value

/-- The body of the first case whose value equals the selected one. The values of the cases behind
it are not evaluated. -/
def selectCase (eval : Expr → Eval σ Value) (selected : Value) :
    List CaseBlock → Eval σ (List Stmt)
  | [] => return []
  | block :: later => do
    let value ← eval block.value
    if selected.scriptEq value then return block.body else selectCase eval selected later

/-- Call a declared function in a frame of its own. Without a `return` the result is `nil`; a call
beyond the limit is reported, and nothing of it is run. -/
def callDeclared (exec : ScopeId → Stmt → Eval σ Flow) (decl : FunctionDecl)
    (args : List Value) : Eval σ Value := do
  let (callDepth, limit) ← Eval.look fun i => (i.callDepth, i.limit)
  if limit ≤ callDepth then
    Eval.report (.callDepthExceeded decl.name limit)
    return .nil
  else
    match ← Eval.inCall decl.params args fun scope => runAll (exec scope) decl.body with
    | .normal => return .nil
    | .returned value => return value

/-! ## With recursion -/

mutual

/-- The value of an expression in a scope. -/
def evaluate [Host σ] : (fuel : Nat) → (scope : ScopeId) → Expr → Eval σ Value
  | 0, _, _ => Eval.giveUp
  | fuel + 1, scope, expr =>
    match expr with
    | .literal kind text => literalValue kind text
    | .var name => Eval.look fun i => i.scopes.lookup scope name
    | .call name args => do
      let values ← valuesOf (fun arg => evaluate fuel scope arg) args
      callFunction fuel scope name values
    | .binary left op right => comparisonValue (fun side => evaluate fuel scope side) left op right

/-- Call a function by name: a declared one, else a built-in one. An unknown name is reported, and
the call has no result. -/
def callFunction [Host σ] : (fuel : Nat) → (scope : ScopeId) → String → List Value → Eval σ Value
  | 0, _, _, _ => Eval.giveUp
  | fuel + 1, scope, name, args => do
    match ← Eval.look fun i => i.scopes.function? scope name with
    | some decl => callDeclared (fun inner stmt => execute fuel inner stmt) decl args
    | none =>
      match Builtin.ofName? name with
      | some builtin => builtin.run args
      | none =>
        Eval.report (.unknownFunction name)
        return .noValue

/-- Execute a statement in a scope. -/
def execute [Host σ] : (fuel : Nat) → (scope : ScopeId) → Stmt → Eval σ Flow
  | 0, _, _ => Eval.giveUp
  | fuel + 1, scope, stmt =>
    match stmt with
    | .assign name value => do
      let result ← evaluate fuel scope value
      Eval.modifyScopes fun scopes => scopes.assign scope name result
      return .normal
    | .call name args => do
      let values ← valuesOf (fun arg => evaluate fuel scope arg) args
      let _ ← callFunction fuel scope name values
      return .normal
    | .declare name params body => do
      Eval.modifyScopes fun scopes =>
        scopes.defineFunction Scopes.rootId ⟨name, params, body⟩
      return .normal
    | .globals names => do
      Eval.modifyScopes fun scopes =>
        names.foldl (fun known name => known.declareGlobal name) scopes
      return .normal
    | .locals names => do
      Eval.modifyScopes fun scopes =>
        names.foldl (fun known name => known.declareLocal scope name) scopes
      return .normal
    | .branch condition thenBody elseBody => do
      let value ← conditionValue (fun side => evaluate fuel scope side) condition
      runAll (fun inner => execute fuel scope inner)
        (if value.isTruthy then thenBody else elseBody)
    | .select selector cases => do
      let selected ← evaluate fuel scope selector
      let body ← selectCase (fun side => evaluate fuel scope side) selected cases
      runAll (fun inner => execute fuel scope inner) body
    | .loop condition body => do
      let value ← conditionValue (fun side => evaluate fuel scope side) condition
      if value.isTruthy then
        match ← runAll (fun inner => execute fuel scope inner) body with
        | .normal => execute fuel scope (.loop condition body)
        | .returned result => return .returned result
      else
        return .normal
    | .ret value => do
      let result ← operandValue (fun side => evaluate fuel scope side) value
      return .returned result
    | .exitCode => Eval.exit

end

/-- Execute statements in order in a scope. -/
def runStatements [Host σ] (fuel : Nat) (scope : ScopeId) (statements : List Stmt) :
    Eval σ Flow :=
  runAll (execute fuel scope) statements

/-- The value of a condition in a scope. -/
def evaluateCondition [Host σ] (fuel : Nat) (scope : ScopeId) (condition : Condition) :
    Eval σ Value :=
  conditionValue (evaluate fuel scope) condition

/-- Execute the statements of a script in the root. A `return` ends them, and its value is lost. -/
def runScript [Host σ] (fuel : Nat) (script : Script) : Eval σ Unit := do
  let _ ← runStatements fuel Scopes.rootId script.statements
  return ()

end DialogueScript
