import DialogueScript.Json.Basic
import DialogueScript.Script.Stmt

set_option autoImplicit false

/-!
# Statements as JSON

Expressions, conditions and statements in tagged form. A missing operand or value is written as
`null` and may be left out when it is read; every other field has to be there, and fields that
are not asked for are ignored.

Reading recurses on a bound for the depth of the value, which is computed from the value itself.

## Main definitions

* `DialogueScript.Expr.toJson`, `DialogueScript.Expr.ofJson?` — expressions.
* `DialogueScript.Condition.toJson`, `DialogueScript.Condition.ofJson?` — conditions.
* `DialogueScript.Stmt.toJson`, `DialogueScript.Stmt.ofJson?` — statements.
-/

namespace DialogueScript

/-! ## Tags -/

/-- The tag of a sort of literals. -/
def LiteralKind.tag : LiteralKind → String
  | .string => "String"
  | .number => "Number"
  | .boolean => "Boolean"

/-- The sort of literals with the given tag. -/
def LiteralKind.ofJson? (json : Json) : Option LiteralKind :=
  match json.variant? with
  | some (tag, .null) =>
    [LiteralKind.string, .number, .boolean].find? fun kind => kind.tag == tag
  | _ => none

/-- The tag of a comparison. -/
def BinaryOp.tag : BinaryOp → String
  | .eq => "Eq"
  | .notEq => "NotEq"
  | .greater => "Greater"
  | .less => "Less"
  | .and => "And"

/-- The comparison with the given tag. -/
def BinaryOp.ofJson? (json : Json) : Option BinaryOp :=
  match json.variant? with
  | some (tag, .null) =>
    [BinaryOp.eq, .notEq, .greater, .less, .and].find? fun op => op.tag == tag
  | _ => none

/-! ## Writing -/

/-- An object for a comparison, given its sides. -/
def BinaryOp.toJsonWith (op : BinaryOp) (left right : Json) : Json :=
  .object [("left", left), ("op", .string op.tag), ("right", right)]

mutual

/-- Write an expression. -/
def Expr.toJson : Expr → Json
  | .literal kind text =>
    .tagged "Literal" (.object [("kind", .string kind.tag), ("text", .string text)])
  | .var name => .tagged "Variable" (.string name)
  | .call name args =>
    .tagged "Call" (.object [("name", .string name), ("args", .array (Expr.listToJson args))])
  | .binary left op right =>
    .tagged "Binary" (op.toJsonWith (Expr.optionToJson left) (Expr.optionToJson right))

/-- Write some expressions. -/
def Expr.listToJson : List Expr → List Json
  | [] => []
  | expr :: later => expr.toJson :: Expr.listToJson later

/-- Write an expression that may be missing. -/
def Expr.optionToJson : Option Expr → Json
  | none => .null
  | some expr => expr.toJson

end

/-- Write a condition. -/
def Condition.toJson (condition : Condition) : Json :=
  condition.op.toJsonWith (Expr.optionToJson condition.left) (Expr.optionToJson condition.right)

mutual

/-- Write a statement. -/
def Stmt.toJson : Stmt → Json
  | .assign name value =>
    .tagged "Assignment" (.object [("name", .string name), ("value", value.toJson)])
  | .call name args =>
    .tagged "Call" (.object [("name", .string name), ("args", .array (Expr.listToJson args))])
  | .declare name params body =>
    .tagged "FunctionDecl" (.object [("name", .string name), ("params", Json.ofStrings params),
      ("body", .array (Stmt.listToJson body))])
  | .globals names => .tagged "Global" (.object [("names", Json.ofStrings names)])
  | .locals names => .tagged "Local" (.object [("names", Json.ofStrings names)])
  | .branch condition thenBody elseBody =>
    .tagged "If" (.object [("condition", condition.toJson),
      ("then_body", .array (Stmt.listToJson thenBody)),
      ("else_body", .array (Stmt.listToJson elseBody))])
  | .select selector cases =>
    .tagged "Switch" (.object [("selector", selector.toJson),
      ("cases", .array (CaseBlock.listToJson cases))])
  | .loop condition body =>
    .tagged "While" (.object [("condition", condition.toJson),
      ("body", .array (Stmt.listToJson body))])
  | .ret value => .tagged "Return" (.object [("value", Expr.optionToJson value)])
  | .exitCode => .string "ExitCode"

/-- Write some statements. -/
def Stmt.listToJson : List Stmt → List Json
  | [] => []
  | stmt :: later => stmt.toJson :: Stmt.listToJson later

/-- Write a case. -/
def CaseBlock.toJson : CaseBlock → Json
  | ⟨value, body⟩ =>
    .object [("value", value.toJson), ("body", .array (Stmt.listToJson body))]

/-- Write some cases. -/
def CaseBlock.listToJson : List CaseBlock → List Json
  | [] => []
  | block :: later => block.toJson :: CaseBlock.listToJson later

end

/-! ## Reading -/

namespace Json

/-- The field of the given name, which has to be there, read in a given way. -/
def need? {α : Type} (json : Json) (name : String) (decode : Json → Option α) : Option α :=
  (json.field? name).bind decode

/-- The field of the given name, which may be missing or `null`, read in a given way. -/
def maybe? {α : Type} (json : Json) (name : String) (decode : Json → Option α) :
    Option (Option α) :=
  match json.field? name with
  | none => some none
  | some .null => some none
  | some inner => (decode inner).map some

/-- An array, each item read in a given way. -/
def list? {α : Type} (decode : Json → Option α) (json : Json) : Option (List α) :=
  json.array?.bind fun items => items.mapM decode

end Json

/-- Read an object for a comparison, given how its sides are read. -/
def Condition.ofJsonWith? (expr : Json → Option Expr) (json : Json) : Option Condition := do
  let left ← json.maybe? "left" expr
  let op ← json.need? "op" BinaryOp.ofJson?
  let right ← json.maybe? "right" expr
  return ⟨left, op, right⟩

/-- Read an expression that is at most so deep. -/
def Expr.ofJsonWithin? : (fuel : Nat) → Json → Option Expr
  | 0, _ => none
  | fuel + 1, json => do
    let (tag, body) ← json.variant?
    match tag with
    | "Literal" =>
      let kind ← body.need? "kind" LiteralKind.ofJson?
      let text ← body.need? "text" Json.string?
      return .literal kind text
    | "Variable" =>
      let name ← body.string?
      return .var name
    | "Call" =>
      let name ← body.need? "name" Json.string?
      let args ← body.need? "args" (Json.list? (Expr.ofJsonWithin? fuel))
      return .call name args
    | "Binary" =>
      let condition ← Condition.ofJsonWith? (Expr.ofJsonWithin? fuel) body
      return condition.toExpr
    | _ => none

/-- Read an expression. -/
def Expr.ofJson? (json : Json) : Option Expr :=
  Expr.ofJsonWithin? json.depth json

/-- Read a condition. -/
def Condition.ofJson? (json : Json) : Option Condition :=
  Condition.ofJsonWith? Expr.ofJson? json

/-- Read a case, given how statements are read. -/
def CaseBlock.ofJsonWith? (stmt : Json → Option Stmt) (json : Json) : Option CaseBlock := do
  let value ← json.need? "value" Expr.ofJson?
  let body ← json.need? "body" (Json.list? stmt)
  return ⟨value, body⟩

/-- Read a statement that is at most so deep. -/
def Stmt.ofJsonWithin? : (fuel : Nat) → Json → Option Stmt
  | 0, _ => none
  | fuel + 1, json => do
    let (tag, body) ← json.variant?
    let block := Json.list? (Stmt.ofJsonWithin? fuel)
    match tag with
    | "Assignment" =>
      let name ← body.need? "name" Json.string?
      let value ← body.need? "value" Expr.ofJson?
      return .assign name value
    | "Call" =>
      let name ← body.need? "name" Json.string?
      let args ← body.need? "args" (Json.list? Expr.ofJson?)
      return .call name args
    | "FunctionDecl" =>
      let name ← body.need? "name" Json.string?
      let params ← body.need? "params" Json.strings?
      let inner ← body.need? "body" block
      return .declare name params inner
    | "Global" =>
      let names ← body.need? "names" Json.strings?
      return .globals names
    | "Local" =>
      let names ← body.need? "names" Json.strings?
      return .locals names
    | "If" =>
      let condition ← body.need? "condition" Condition.ofJson?
      let thenBody ← body.need? "then_body" block
      let elseBody ← body.need? "else_body" block
      return .branch condition thenBody elseBody
    | "Switch" =>
      let selector ← body.need? "selector" Expr.ofJson?
      let cases ← body.need? "cases"
        (Json.list? (CaseBlock.ofJsonWith? (Stmt.ofJsonWithin? fuel)))
      return .select selector cases
    | "While" =>
      let condition ← body.need? "condition" Condition.ofJson?
      let inner ← body.need? "body" block
      return .loop condition inner
    | "Return" =>
      if body.isObject then
        let value ← body.maybe? "value" Expr.ofJson?
        return .ret value
      else none
    | "ExitCode" =>
      match body with
      | .null => return .exitCode
      | _ => none
    | _ => none

/-- Read a statement. -/
def Stmt.ofJson? (json : Json) : Option Stmt :=
  Stmt.ofJsonWithin? json.depth json

end DialogueScript
