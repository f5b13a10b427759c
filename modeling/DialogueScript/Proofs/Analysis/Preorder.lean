import DialogueScript.Proofs.Analysis.Coverage
import Mathlib.Data.List.Basic

set_option autoImplicit false

/-!
# The tree of a script

The statements and expressions of a script form a tree, and a walk through the tree meets every
node before what lies in it. A *visit* is a node together with the statements in whose blocks it
stands. The occurrences that a check looks at are what the visits of the walk are to it, in the
same order, and each stands where the statements around its node say.

**Proof sketch.** A walk is a node followed by the walks from its children, and the occurrences in
a node are what the node itself is to a check followed by the occurrences in its children: one case
per form of statement and expression (`DialogueScript.Stmt.occurrences_eq`,
`DialogueScript.Expr.occurrences_eq`). The rest is induction along the walk.

## Main definitions

* `DialogueScript.Node`, `DialogueScript.Stmt.children`, `DialogueScript.Expr.parts` — the tree of
  a script.
* `DialogueScript.Visit`, `DialogueScript.Visit.walk`, `DialogueScript.walks` — the nodes in order,
  with what is around them.

## Main results

* `DialogueScript.Visit.flatMap_own_walk` — what is met on a walk are the occurrences.
* `DialogueScript.filterMap_outermost?_walks` — the visits with nothing around them.
* `DialogueScript.declaredNames_eq_filterMap` — the declared names are those of the declarations on
  the walk.
* `DialogueScript.declaredNames_eq` — the declared names, block by block.
-/

namespace DialogueScript

/-! ## The tree of a script -/

/-- A statement or an expression. -/
inductive Node
  /-- A statement. -/
  | stmt (s : Stmt)
  /-- An expression. -/
  | expr (e : Expr)

/-- What lies directly in a case: its value, then its statements. -/
def CaseBlock.children (block : CaseBlock) : List Node :=
  .expr block.value :: block.body.map .stmt

/-- What lies directly in a statement, in the order of the source. -/
def Stmt.children : Stmt → List Node
  | .assign _ value => [.expr value]
  | .call _ args => args.map .expr
  | .declare _ _ body => body.map .stmt
  | .branch condition thenBody elseBody =>
    condition.operands.map .expr ++ thenBody.map .stmt ++ elseBody.map .stmt
  | .select selector cases => .expr selector :: cases.flatMap CaseBlock.children
  | .loop condition body => condition.operands.map .expr ++ body.map .stmt
  | .ret value => value.toList.map .expr
  | .globals _ | .locals _ | .exitCode => []

/-- The expressions directly in an expression, in the order of the source. -/
def Expr.parts : Expr → List Expr
  | .call _ args => args
  | .binary left op right => Condition.operands ⟨left, op, right⟩
  | .literal _ _ | .var _ => []

/-- The children of a statement are its expressions and what stands in its blocks. -/
lemma Stmt.mem_children {s : Stmt} {n : Node} :
    n ∈ s.children ↔
      (∃ e ∈ s.operands, n = .expr e) ∨ ∃ block ∈ s.childBlocks, ∃ t ∈ block, n = .stmt t := by
  cases s with
  | select selector cases =>
    simp only [Stmt.children, Stmt.operands, Stmt.childBlocks]
    simp [CaseBlock.children, and_or_left, exists_or, or_assoc, eq_comm]
  | _ => simp [Stmt.children, Stmt.operands, Stmt.childBlocks, eq_comm]

/-- An expression in a statement is smaller than the statement. -/
lemma Stmt.sizeOf_lt_of_mem_operands {s : Stmt} {e : Expr} (he : e ∈ s.operands) :
    sizeOf e < sizeOf s := by
  cases s with
  | assign name value =>
    obtain rfl := List.mem_singleton.mp he
    simp only [Stmt.assign.sizeOf_spec]
    omega
  | call name args =>
    have hlt : sizeOf e < sizeOf args := List.sizeOf_lt_of_mem he
    simp only [Stmt.call.sizeOf_spec]
    omega
  | branch condition thenBody elseBody =>
    have hlt := Condition.sizeOf_lt_of_mem_operands he
    simp only [Stmt.branch.sizeOf_spec]
    omega
  | select selector cases =>
    simp only [Stmt.select.sizeOf_spec]
    rcases List.mem_cons.mp he with rfl | he
    · omega
    · obtain ⟨⟨value, body⟩, hcase, rfl⟩ := List.mem_map.mp he
      have hlt := List.sizeOf_lt_of_mem hcase
      simp only [CaseBlock.mk.sizeOf_spec] at hlt
      show sizeOf value < _
      omega
  | loop condition body =>
    have hlt := Condition.sizeOf_lt_of_mem_operands he
    simp only [Stmt.loop.sizeOf_spec]
    omega
  | ret value =>
    obtain rfl : value = some e := by simpa [Stmt.operands] using he
    simp only [Stmt.ret.sizeOf_spec, Option.some.sizeOf_spec]
    omega
  | _ => exact absurd he List.not_mem_nil

/-- A part of an expression is smaller than the expression. -/
lemma Expr.sizeOf_lt_of_mem_parts {e part : Expr} (h : part ∈ e.parts) :
    sizeOf part < sizeOf e := by
  cases e with
  | call name args =>
    have hlt : sizeOf part < sizeOf args := List.sizeOf_lt_of_mem h
    simp only [Expr.call.sizeOf_spec]
    omega
  | binary left op right =>
    have hlt := Condition.sizeOf_lt_of_mem_operands h
    simp only [Condition.mk.sizeOf_spec] at hlt
    simp only [Expr.binary.sizeOf_spec]
    omega
  | _ => exact absurd h List.not_mem_nil

/-! ## Walks -/

/-- A node on a walk through a script. -/
structure Visit where
  /-- The statements in whose blocks the node stands, the innermost first. -/
  around : List Stmt
  /-- The node. -/
  node : Node

namespace Visit

/-- The visit of a child of a statement. Only what stands in its blocks has it around. -/
def inside (around : List Stmt) (s : Stmt) : Node → Visit
  | .stmt t => ⟨s :: around, .stmt t⟩
  | .expr e => ⟨around, .expr e⟩

/-- The visits of the children. -/
def below : Visit → List Visit
  | ⟨around, .stmt s⟩ => s.children.map (inside around s)
  | ⟨around, .expr e⟩ => e.parts.map fun part => ⟨around, .expr part⟩

/-- What lies directly in a node is smaller than the node. -/
lemma sizeOf_lt_of_mem_below {v w : Visit} (h : w ∈ v.below) : sizeOf w.node < sizeOf v.node := by
  obtain ⟨around, s | e⟩ := v
  · obtain ⟨n, hn, rfl⟩ := List.mem_map.mp h
    rcases Stmt.mem_children.mp hn with ⟨e, he, rfl⟩ | ⟨block, hblock, t, ht, rfl⟩
    · have hlt := Stmt.sizeOf_lt_of_mem_operands he
      simp only [inside, Node.expr.sizeOf_spec, Node.stmt.sizeOf_spec]
      omega
    · have hlt := Stmt.sizeOf_lt_of_mem_childBlocks hblock ht
      simp only [inside, Node.stmt.sizeOf_spec]
      omega
  · obtain ⟨part, hpart, rfl⟩ := List.mem_map.mp h
    have hlt := Expr.sizeOf_lt_of_mem_parts hpart
    simp only [Node.expr.sizeOf_spec]
    omega

/-- The walk from a node: the node, then the walks from its children in their order. -/
def walk (v : Visit) : List Visit :=
  v :: v.below.attach.flatMap fun w => w.val.walk
termination_by sizeOf v.node
decreasing_by exact sizeOf_lt_of_mem_below w.property

/-- A walk visits the node first, and then whatever lies directly in it, one after the other. -/
lemma walk_eq (v : Visit) : v.walk = v :: v.below.flatMap walk := by
  rw [walk]
  simp

end Visit

/-! ## Occurrences along the children -/

/-- The occurrences in some expressions are those in each of them, in their order. -/
lemma Expr.listOccurrences_eq (place : Place) (es : List Expr) :
    Expr.listOccurrences place es = es.flatMap (Expr.occurrences place) := by
  induction es with
  | nil => rfl
  | cons e es ih => rw [Expr.listOccurrences, ih, List.flatMap_cons]

/-- The occurrences in an expression that may be missing are those in it, if it is there. -/
lemma Expr.optionOccurrences_eq (place : Place) (operand : Option Expr) :
    Expr.optionOccurrences place operand = operand.toList.flatMap (Expr.occurrences place) := by
  cases operand with
  | none => rfl
  | some e => simp [Expr.optionOccurrences]

/-- The occurrences in a condition are those in its sides, the left one first. -/
lemma Condition.occurrences_eq (place : Place) (condition : Condition) :
    condition.occurrences place = condition.operands.flatMap (Expr.occurrences place) := by
  rw [Condition.occurrences, Expr.optionOccurrences_eq, Expr.optionOccurrences_eq,
    Condition.operands, List.flatMap_append]

/-- The occurrences in some statements are those in each of them, in their order. -/
lemma Stmt.listOccurrences_eq (place : Place) (statements : List Stmt) :
    Stmt.listOccurrences place statements = statements.flatMap (Stmt.occurrences place) := by
  induction statements with
  | nil => rfl
  | cons s later ih => rw [Stmt.listOccurrences, ih, List.flatMap_cons]

/-- The occurrences in a child of a statement: an expression stands where the statement does, and
what stands in its blocks is at the inner place. -/
def Node.occurrences (place inner : Place) : Node → List Occurrence
  | .stmt t => t.occurrences inner
  | .expr e => e.occurrences place

/-- The occurrences in some cases are those in the value and then in the body of each, where the
body stands one place deeper. -/
lemma CaseBlock.listOccurrences_eq (place : Place) (cases : List CaseBlock) :
    CaseBlock.listOccurrences place cases =
      (cases.flatMap CaseBlock.children).flatMap (Node.occurrences place place.inBlock) := by
  induction cases with
  | nil => rfl
  | cons block later ih =>
    obtain ⟨value, body⟩ := block
    simp [CaseBlock.listOccurrences, CaseBlock.occurrences, ih, Stmt.listOccurrences_eq,
      CaseBlock.children, Node.occurrences, List.flatMap_map]

/-- **The occurrences in a statement**: what it is itself, then those in its children. -/
lemma Stmt.occurrences_eq (place : Place) (s : Stmt) :
    s.occurrences place =
      s.own place ++ s.children.flatMap (Node.occurrences place (place.inside s)) := by
  cases s with
  | select selector cases =>
    simp [Stmt.occurrences, Stmt.own, Stmt.children, Node.occurrences, Place.inside,
      Stmt.function?, CaseBlock.listOccurrences_eq]
  | _ =>
    simp [Stmt.occurrences, Stmt.own, Stmt.children, Node.occurrences, List.flatMap_map,
      Place.inside, Stmt.function?, Expr.listOccurrences_eq, Expr.optionOccurrences_eq,
      Condition.occurrences_eq, Stmt.listOccurrences_eq]

/-- What an expression itself is to a check, without what lies in it. -/
def Expr.own (place : Place) : Expr → List Occurrence
  | .call name _ => [.call name place]
  | _ => []

/-- **The occurrences in an expression**: what it is itself, then those in its parts. -/
lemma Expr.occurrences_eq (place : Place) (e : Expr) :
    e.occurrences place = e.own place ++ e.parts.flatMap (Expr.occurrences place) := by
  cases e with
  | call name args => simp [Expr.occurrences, Expr.own, Expr.parts, Expr.listOccurrences_eq]
  | binary left op right =>
    simp [Expr.occurrences, Expr.own, Expr.parts, Condition.operands, Expr.optionOccurrences_eq]
  | _ => simp [Expr.occurrences, Expr.own, Expr.parts]

/-! ## What is met on a walk -/

namespace Visit

/-- Where the node stands: in the innermost function around it, and outside of blocks if nothing
is around it. -/
def place (v : Visit) : Place :=
  ⟨(v.around.findSome? Stmt.function?).map FunctionDecl.name, v.around.isEmpty⟩

/-- What the node itself is to a check. -/
def own (v : Visit) : List Occurrence :=
  match v.node with
  | .stmt s => s.own v.place
  | .expr e => e.own v.place

/-- The occurrences in the node. -/
def occurrences (v : Visit) : List Occurrence :=
  v.node.occurrences v.place v.place

/-- What stands in a block of a statement is at the place inside the statement. -/
lemma place_stmt (around : List Stmt) (s t : Stmt) :
    place ⟨s :: around, .stmt t⟩ = (place ⟨around, .stmt s⟩).inside s := by
  unfold place Place.inside
  rw [List.findSome?_cons]
  cases s.function? with
  | none => rfl
  | some decl => rfl

/-- The occurrences in a child of a statement, found from the way to it. -/
lemma occurrences_inside (around : List Stmt) (s : Stmt) (n : Node) :
    (inside around s n).occurrences =
      n.occurrences (place ⟨around, .stmt s⟩) ((place ⟨around, .stmt s⟩).inside s) := by
  cases n with
  | stmt t => rw [← place_stmt around s t]; rfl
  | expr e => rfl

/-- The occurrences in a node: what it is itself, then those in its children. -/
lemma occurrences_eq (v : Visit) : v.occurrences = v.own ++ v.below.flatMap occurrences := by
  obtain ⟨around, s | e⟩ := v
  · unfold below
    rw [List.flatMap_map]
    simp only [occurrences_inside]
    exact Stmt.occurrences_eq _ s
  · unfold below
    rw [List.flatMap_map]
    exact Expr.occurrences_eq _ e

/-- **What is met on a walk** are the occurrences. -/
theorem flatMap_own_walk (v : Visit) : v.walk.flatMap own = v.occurrences := by
  induction v using walk.induct with
  | case1 v ih =>
    rw [walk_eq, List.flatMap_cons, List.flatMap_assoc, occurrences_eq]
    congr 1
    exact List.flatMap_congr fun w hw => ih ⟨w, hw⟩

/-- The name that the node declares. -/
def declared? (v : Visit) : Option String :=
  match v.node with
  | .stmt (.declare name _ _) => some name
  | _ => none

/-- What the node is to a check declares what the node declares. -/
lemma filterMap_own (v : Visit) : v.own.filterMap Occurrence.declared? = v.declared?.toList := by
  obtain ⟨around, s | e⟩ := v
  · cases s <;> rfl
  · cases e <;> rfl

/-- A node is nothing to a check, or a single occurrence. -/
lemma own_eq_nil_or (v : Visit) : v.own = [] ∨ ∃ o, v.own = [o] := by
  obtain ⟨around, s | e⟩ := v
  · cases s <;> simp [own, Stmt.own]
  · cases e <;> simp [own, Expr.own]

end Visit

/-! ## The walk through a script -/

/-- The walk through some statements. -/
def walks (statements : List Stmt) : List Visit :=
  statements.flatMap fun s => Visit.walk ⟨[], .stmt s⟩

namespace Visit

/-- The node, if it is a statement with nothing around it. -/
def outermost? : Visit → Option Stmt
  | ⟨[], .stmt s⟩ => some s
  | _ => none

/-- The children of a node have something around them, or are expressions. -/
lemma outermost?_of_mem_below {v w : Visit} (hw : w ∈ v.below) : w.outermost? = none := by
  obtain ⟨around, s | e⟩ := v
  · obtain ⟨n, -, rfl⟩ := List.mem_map.mp hw
    cases n with
    | stmt t => rfl
    | expr e => cases around <;> rfl
  · obtain ⟨part, -, rfl⟩ := List.mem_map.mp hw
    cases around <;> rfl

/-- On a walk, only the first node can have nothing around it. -/
lemma filterMap_outermost?_walk (v : Visit) :
    v.walk.filterMap outermost? = v.outermost?.toList := by
  induction v using walk.induct with
  | case1 v ih =>
    have hbelow : v.below.flatMap (fun w => w.walk.filterMap outermost?) = [] := by
      rw [List.flatMap_eq_nil_iff]
      intro w hw
      rw [ih ⟨w, hw⟩, outermost?_of_mem_below hw]
      rfl
    rw [walk_eq, List.filterMap_eq_flatMap_toList, List.flatMap_cons,
      ← List.filterMap_eq_flatMap_toList, List.filterMap_flatMap, hbelow, List.append_nil]

end Visit

/-- The statements with nothing around them are the statements that are walked through. -/
lemma filterMap_outermost?_walks (statements : List Stmt) :
    (walks statements).filterMap Visit.outermost? = statements := by
  rw [walks, List.filterMap_flatMap]
  simp only [Visit.filterMap_outermost?_walk, Visit.outermost?]
  simp

/-- What is met on the walk through some statements are their occurrences. -/
lemma flatMap_own_walks (statements : List Stmt) :
    (walks statements).flatMap Visit.own = Stmt.listOccurrences Place.outside statements := by
  rw [walks, List.flatMap_assoc, Stmt.listOccurrences_eq]
  exact List.flatMap_congr fun s _ => Visit.flatMap_own_walk ⟨[], .stmt s⟩

/-! ## Declared names -/

/-- The declared names are those of the declarations on the walk. -/
lemma declaredNames_eq_filterMap (statements : List Stmt) :
    declaredNames statements = (walks statements).filterMap Visit.declared? := by
  rw [declaredNames, ← flatMap_own_walks, List.filterMap_flatMap, List.filterMap_eq_flatMap_toList]
  exact List.flatMap_congr fun v _ => v.filterMap_own

/-- The names that some statements declare are those that each of them declares, in their order. -/
lemma declaredNames_eq_flatMap (statements : List Stmt) :
    declaredNames statements = statements.flatMap fun s => declaredNames [s] := by
  simp [declaredNames, Stmt.listOccurrences_eq, List.filterMap_flatMap]

/-- The names that a node declares. -/
def Node.declared : Node → List String
  | .stmt t => declaredNames [t]
  | .expr _ => []

/-- The names declared in the children of a statement are those declared in its blocks. -/
lemma Stmt.flatMap_declared_children (s : Stmt) :
    s.children.flatMap Node.declared = s.childBlocks.flatMap declaredNames := by
  have hstmts : ∀ block : List Stmt, (block.map Node.stmt).flatMap Node.declared =
      declaredNames block := by
    intro block
    rw [List.flatMap_map, declaredNames_eq_flatMap block]
    rfl
  have hexprs : ∀ es : List Expr, (es.map Node.expr).flatMap Node.declared = [] := by
    intro es
    rw [List.flatMap_map]
    exact List.flatMap_eq_nil_iff.mpr fun _ _ => rfl
  cases s with
  | select selector cases =>
    simp only [Stmt.children, Stmt.childBlocks, List.flatMap_cons, List.flatMap_assoc,
      List.flatMap_map]
    exact List.flatMap_congr fun block _ => hstmts block.body
  | assign name value => rfl
  | _ => simp [Stmt.children, Stmt.childBlocks, hstmts, hexprs]

/-- The names declared in a statement, wherever it stands: its own, then those declared in its
blocks. -/
lemma Stmt.filterMap_occurrences (s : Stmt) : ∀ place : Place,
    (s.occurrences place).filterMap Occurrence.declared? =
      (s.function?.map FunctionDecl.name).toList ++ s.childBlocks.flatMap declaredNames := by
  induction s using Stmt.block_induction with
  | step s ih =>
    intro place
    have hown : (s.own place).filterMap Occurrence.declared? =
        (s.function?.map FunctionDecl.name).toList := by
      cases s <;> rfl
    have hnode : ∀ n ∈ s.children,
        (n.occurrences place (place.inside s)).filterMap Occurrence.declared? = n.declared := by
      intro n hn
      rcases Stmt.mem_children.mp hn with ⟨e, -, rfl⟩ | ⟨block, hblock, t, ht, rfl⟩
      · rw [Node.declared, List.filterMap_eq_nil_iff]
        intro o ho
        obtain ⟨name, rfl⟩ := Expr.eq_call_of_mem_occurrences e ho
        rfl
      · -- A declaration is the same in the block and outside of it.
        rw [Node.declared, declaredNames, Stmt.listOccurrences_eq, List.flatMap_singleton,
          ih block hblock t ht Place.outside]
        exact ih block hblock t ht (place.inside s)
    rw [Stmt.occurrences_eq, List.filterMap_append, hown, List.filterMap_flatMap,
      List.flatMap_congr hnode, Stmt.flatMap_declared_children]

/-- **The declared names, block by block.** -/
theorem declaredNames_eq (statements : List Stmt) :
    declaredNames statements = statements.flatMap fun s =>
      (s.function?.map FunctionDecl.name).toList ++ s.childBlocks.flatMap declaredNames := by
  rw [declaredNames, Stmt.listOccurrences_eq, List.filterMap_flatMap]
  exact List.flatMap_congr fun s _ => s.filterMap_occurrences Place.outside

end DialogueScript
