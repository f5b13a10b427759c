import DialogueScript.Script.Stmt
import Mathlib.Tactic.Common

set_option autoImplicit false

/-!
# What a statement calls and whether it returns

A statement *calls* a name if the name is the callee of a call statement or a call expression
anywhere in it, also in the body of a function that it declares. It *returns* if a `return` lies in
it that is not in the body of a function.

## Main definitions

* `DialogueScript.Stmt.operands` — the expressions directly in a statement.
* `DialogueScript.Expr.Calls`, `DialogueScript.Stmt.Calls` — the callees.
* `DialogueScript.Stmt.CallsOnly` — all callees are of some kind.
* `DialogueScript.Stmt.Returns` — a `return` outside functions.
-/

namespace DialogueScript

/-! ## Expressions -/

/-- An expression calls a name. -/
inductive Expr.Calls (name : String) : Expr → Prop
  /-- It is a call of the name. -/
  | here {args : List Expr} : Expr.Calls name (.call name args)
  /-- An argument calls it. -/
  | arg {callee : String} {args : List Expr} {e : Expr} (he : e ∈ args)
      (h : Expr.Calls name e) : Expr.Calls name (.call callee args)
  /-- The left side of a comparison calls it. -/
  | left {op : BinaryOp} {e : Expr} {right : Option Expr} (h : Expr.Calls name e) :
      Expr.Calls name (.binary (some e) op right)
  /-- The right side of a comparison calls it. -/
  | right {op : BinaryOp} {e : Expr} {left : Option Expr} (h : Expr.Calls name e) :
      Expr.Calls name (.binary left op (some e))

/-- Every name that the expression calls is of the given kind. -/
def Expr.CallsOnly (Called : String → Prop) (e : Expr) : Prop :=
  ∀ name, e.Calls name → Called name

namespace Expr.CallsOnly

variable {Called : String → Prop}

/-- The name that a call expression calls is one that may be called. -/
lemma callee {name : String} {args : List Expr} (h : CallsOnly Called (.call name args)) :
    Called name :=
  h name .here

/-- The arguments of a call expression only call what it may call. -/
lemma arg {name : String} {args : List Expr} (h : CallsOnly Called (.call name args)) :
    ∀ e ∈ args, e.CallsOnly Called :=
  fun _ he callee hcallee => h callee (.arg he hcallee)

/-- The left side of a comparison only calls what the comparison may call. -/
lemma left {e : Expr} {left right : Option Expr} {op : BinaryOp}
    (h : CallsOnly Called (.binary left op right)) (he : e ∈ left) : e.CallsOnly Called := by
  obtain rfl := Option.mem_def.mp he
  exact fun callee hcallee => h callee (.left hcallee)

/-- The right side of a comparison only calls what the comparison may call. -/
lemma right {e : Expr} {left right : Option Expr} {op : BinaryOp}
    (h : CallsOnly Called (.binary left op right)) (he : e ∈ right) : e.CallsOnly Called := by
  obtain rfl := Option.mem_def.mp he
  exact fun callee hcallee => h callee (.right hcallee)

end Expr.CallsOnly

/-! ## Statements -/

/-- The sides of a condition that are there. -/
def Condition.operands (condition : Condition) : List Expr :=
  condition.left.toList ++ condition.right.toList

/-- A side of a condition is smaller than the condition. -/
lemma Condition.sizeOf_lt_of_mem_operands {condition : Condition} {e : Expr}
    (he : e ∈ condition.operands) : sizeOf e < sizeOf condition := by
  obtain ⟨left, op, right⟩ := condition
  simp only [Condition.mk.sizeOf_spec]
  rcases List.mem_append.mp he with hleft | hright
  · obtain rfl : left = some e := by simpa using hleft
    simp only [Option.some.sizeOf_spec]
    omega
  · obtain rfl : right = some e := by simpa using hright
    simp only [Option.some.sizeOf_spec]
    omega

/-- The expressions directly in a statement, in the order of the source. -/
def Stmt.operands : Stmt → List Expr
  | .assign _ value => [value]
  | .call _ args => args
  | .branch condition _ _ => condition.operands
  | .select selector cases => selector :: cases.map CaseBlock.value
  | .loop condition _ => condition.operands
  | .ret value => value.toList
  | .declare _ _ _ | .globals _ | .locals _ | .exitCode => []

/-- A statement calls a name. -/
inductive Stmt.Calls (name : String) : Stmt → Prop
  /-- It is a call of the name. -/
  | here {args : List Expr} : Stmt.Calls name (.call name args)
  /-- An expression in it calls the name. -/
  | operand {s : Stmt} {e : Expr} (he : e ∈ s.operands) (h : e.Calls name) : Stmt.Calls name s
  /-- A statement in one of its blocks calls the name. -/
  | inside {s t : Stmt} {block : List Stmt} (hblock : block ∈ s.childBlocks) (ht : t ∈ block)
      (h : Stmt.Calls name t) : Stmt.Calls name s

/-- Every name that the statement calls is of the given kind. -/
def Stmt.CallsOnly (Called : String → Prop) (s : Stmt) : Prop :=
  ∀ name, s.Calls name → Called name

/-- Every name that is called in the body of the function is of the given kind. -/
def FunctionDecl.CallsOnly (Called : String → Prop) (decl : FunctionDecl) : Prop :=
  ∀ s ∈ decl.body, s.CallsOnly Called

namespace Stmt.CallsOnly

variable {Called : String → Prop} {s : Stmt}

/-- The name that a call statement calls is one that may be called. -/
lemma callee {name : String} {args : List Expr} (h : CallsOnly Called (.call name args)) :
    Called name :=
  h name .here

/-- The operands of a statement only call what the statement may call. -/
lemma operand (h : CallsOnly Called s) : ∀ e ∈ s.operands, e.CallsOnly Called :=
  fun _ he name hname => h name (.operand he hname)

/-- The statements inside a statement only call what that statement may call. -/
lemma inside (h : CallsOnly Called s) {block : List Stmt} (hblock : block ∈ s.childBlocks) :
    ∀ t ∈ block, t.CallsOnly Called :=
  fun _ ht name hname => h name (.inside hblock ht hname)

end Stmt.CallsOnly

/-- A statement may return: a `return` lies in it, outside the functions that it declares. -/
inductive Stmt.Returns : Stmt → Prop
  /-- It is a `return`. -/
  | here {value : Option Expr} : Stmt.Returns (.ret value)
  /-- A statement in one of its blocks returns, and it is no declaration. -/
  | inside {s t : Stmt} {block : List Stmt} (hs : s.function? = none)
      (hblock : block ∈ s.childBlocks) (ht : t ∈ block) (h : Stmt.Returns t) : Stmt.Returns s

end DialogueScript
