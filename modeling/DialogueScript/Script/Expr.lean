set_option autoImplicit false

/-!
# Expressions and conditions

An expression is a literal, a variable, a call or a comparison. Literals keep the text they were
written with and get their value only when they are evaluated. A comparison may lack a side; this
happens where a side could not be read.

## Main definitions

* `DialogueScript.Expr` — expressions.
* `DialogueScript.Condition` — the comparison that guards a branch or a loop.
-/

namespace DialogueScript

/-- The sorts of literals. -/
inductive LiteralKind
  /-- A quoted text. -/
  | string
  /-- A number. -/
  | number
  /-- One of `true` and `false`. -/
  | boolean
  deriving DecidableEq, Repr

/-- The comparisons. Source text can only express `eq`. -/
inductive BinaryOp
  /-- Both sides have the same value. -/
  | eq
  /-- The sides differ. -/
  | notEq
  /-- Both sides are numbers and the left one is greater. -/
  | greater
  /-- Both sides are numbers and the left one is less. -/
  | less
  /-- Both sides count as true. -/
  | and
  deriving DecidableEq, Repr

/-- Expressions. -/
inductive Expr
  /-- A literal with its text. -/
  | literal (kind : LiteralKind) (text : String)
  /-- The value of a variable. -/
  | var (name : String)
  /-- The result of a call. -/
  | call (name : String) (args : List Expr)
  /-- The outcome of a comparison. -/
  | binary (left : Option Expr) (op : BinaryOp) (right : Option Expr)

/-- The comparison that guards a branch or a loop. -/
structure Condition where
  /-- The left side, if it could be read. -/
  left : Option Expr
  /-- The comparison. -/
  op : BinaryOp
  /-- The right side, if it could be read. -/
  right : Option Expr

namespace Condition

/-- A comparison with both sides. -/
def compare (left : Expr) (op : BinaryOp) (right : Expr) : Condition :=
  ⟨some left, op, some right⟩

/-- The comparison of two expressions for equality. -/
def equals (left right : Expr) : Condition :=
  compare left .eq right

/-- A condition as an expression. -/
def toExpr (condition : Condition) : Expr :=
  .binary condition.left condition.op condition.right

end Condition

namespace Expr

/-- A text literal. -/
def string (text : String) : Expr :=
  literal .string text

/-- A number literal with the given spelling. -/
def number (text : String) : Expr :=
  literal .number text

/-- A Boolean literal. -/
def bool (b : Bool) : Expr :=
  literal .boolean (if b then "true" else "false")

end Expr

end DialogueScript
