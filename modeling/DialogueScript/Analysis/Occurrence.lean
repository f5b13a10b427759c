import DialogueScript.Script.Stmt

set_option autoImplicit false

/-!
# What a check looks at

The places of a script that a check has something to say about, in the order of the source: every
call, every function declaration and every `return`, each with where it stands. A construct comes
before what lies inside it.

## Main definitions

* `DialogueScript.Place` — where something stands.
* `DialogueScript.Occurrence` — a call, a declaration or a `return`, with its place.
* `DialogueScript.Stmt.listOccurrences` — the occurrences in a list of statements.
* `DialogueScript.declaredNames` — the functions that a list of statements declares.
-/

namespace DialogueScript

/-- Where something stands in a script. -/
structure Place where
  /-- The innermost function around it. -/
  function : Option String
  /-- It stands outside every block. -/
  topLevel : Bool
  deriving DecidableEq, Repr

namespace Place

/-- Outside every function and block. -/
def outside : Place :=
  ⟨none, true⟩

/-- Inside a block at the given place. -/
def inBlock (place : Place) : Place :=
  { place with topLevel := false }

/-- In the body of the given function. -/
def inFunction (name : String) : Place :=
  ⟨some name, false⟩

end Place

/-- Something a check looks at. -/
inductive Occurrence
  /-- A function is called. -/
  | call (name : String) (place : Place)
  /-- A function is declared. -/
  | declaration (name : String) (place : Place)
  /-- A `return`. -/
  | ret (place : Place)
  deriving DecidableEq, Repr

/-! ## Expressions -/

mutual

/-- The calls in an expression. -/
def Expr.occurrences (place : Place) : Expr → List Occurrence
  | .literal _ _ => []
  | .var _ => []
  | .call name args => .call name place :: Expr.listOccurrences place args
  | .binary left _ right =>
    Expr.optionOccurrences place left ++ Expr.optionOccurrences place right

/-- The calls in some expressions. -/
def Expr.listOccurrences (place : Place) : List Expr → List Occurrence
  | [] => []
  | expr :: later => expr.occurrences place ++ Expr.listOccurrences place later

/-- The calls in an expression that may be missing. -/
def Expr.optionOccurrences (place : Place) : Option Expr → List Occurrence
  | none => []
  | some expr => expr.occurrences place

end

/-- The calls in a condition. -/
def Condition.occurrences (place : Place) (condition : Condition) : List Occurrence :=
  Expr.optionOccurrences place condition.left ++ Expr.optionOccurrences place condition.right

/-! ## Statements -/

mutual

/-- The occurrences in a statement. -/
def Stmt.occurrences (place : Place) : Stmt → List Occurrence
  | .assign _ value => value.occurrences place
  | .call name args => .call name place :: Expr.listOccurrences place args
  | .declare name _ body =>
    .declaration name place :: Stmt.listOccurrences (Place.inFunction name) body
  | .globals _ => []
  | .locals _ => []
  | .branch condition thenBody elseBody =>
    condition.occurrences place ++ Stmt.listOccurrences place.inBlock thenBody ++
      Stmt.listOccurrences place.inBlock elseBody
  | .select selector cases => selector.occurrences place ++ CaseBlock.listOccurrences place cases
  | .loop condition body =>
    condition.occurrences place ++ Stmt.listOccurrences place.inBlock body
  | .ret value => .ret place :: Expr.optionOccurrences place value
  | .exitCode => []

/-- The occurrences in some statements. -/
def Stmt.listOccurrences (place : Place) : List Stmt → List Occurrence
  | [] => []
  | stmt :: later => stmt.occurrences place ++ Stmt.listOccurrences place later

/-- The occurrences in a case of a `switch` at the given place. -/
def CaseBlock.occurrences (place : Place) : CaseBlock → List Occurrence
  | ⟨value, body⟩ => value.occurrences place ++ Stmt.listOccurrences place.inBlock body

/-- The occurrences in some cases of a `switch` at the given place. -/
def CaseBlock.listOccurrences (place : Place) : List CaseBlock → List Occurrence
  | [] => []
  | block :: later => block.occurrences place ++ CaseBlock.listOccurrences place later

end

/-- The name that an occurrence declares. -/
def Occurrence.declared? : Occurrence → Option String
  | .declaration name _ => some name
  | _ => none

/-- The functions that some statements declare at any depth, in the order of the source. -/
def declaredNames (statements : List Stmt) : List String :=
  (Stmt.listOccurrences Place.outside statements).filterMap Occurrence.declared?

end DialogueScript
