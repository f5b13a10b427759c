import DialogueScript.Script.Expr

set_option autoImplicit false

/-!
# Statements

The statements of the language. Function declarations are statements too and may stand inside any
block.

## Main definitions

* `DialogueScript.Stmt`, `DialogueScript.CaseBlock` — statements.
* `DialogueScript.FunctionDecl` — a declared function.
* `DialogueScript.Stmt.childBlocks` — the blocks directly inside a statement.
-/

namespace DialogueScript

mutual

/-- Statements. -/
inductive Stmt
  /-- Give a variable a value. -/
  | assign (name : String) (value : Expr)
  /-- Call a function and forget its result. -/
  | call (name : String) (args : List Expr)
  /-- Declare a function. -/
  | declare (name : String) (params : List String) (body : List Stmt)
  /-- Declare variables of the whole program. -/
  | globals (names : List String)
  /-- Declare variables of the current call. -/
  | locals (names : List String)
  /-- Run one of two blocks; a missing `else` is an empty block. -/
  | branch (condition : Condition) (thenBody elseBody : List Stmt)
  /-- Run the first case whose value equals the selector's. -/
  | select (selector : Expr) (cases : List CaseBlock)
  /-- Run a block as long as a condition holds. -/
  | loop (condition : Condition) (body : List Stmt)
  /-- Leave the current function, with a value or without. -/
  | ret (value : Option Expr)
  /-- End the call that the outside world made. -/
  | exitCode

/-- A case: the value it stands for, and what it does. -/
structure CaseBlock where
  /-- The value that selects this case. -/
  value : Expr
  /-- What is run if it is selected. -/
  body : List Stmt

end

/-- A declared function. -/
structure FunctionDecl where
  /-- Its name. -/
  name : String
  /-- Its parameters, in order. -/
  params : List String
  /-- What a call runs. -/
  body : List Stmt

namespace Stmt

/-- The function that a statement declares, if it is a declaration. -/
def function? : Stmt → Option FunctionDecl
  | declare name params body => some ⟨name, params, body⟩
  | _ => none

/-- The blocks directly inside a statement, in the order of the source. -/
def childBlocks : Stmt → List (List Stmt)
  | declare _ _ body => [body]
  | branch _ thenBody elseBody => [thenBody, elseBody]
  | select _ cases => cases.map CaseBlock.body
  | loop _ body => [body]
  | _ => []

end Stmt

end DialogueScript
