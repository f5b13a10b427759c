import DialogueScript.Proofs.Parser.Grammar
import DialogueScript.Proofs.Script.Callee
import Mathlib.Algebra.GroupWithZero.Nat

set_option autoImplicit false

/-!
# Pruning programs

With room for only so many blocks and call expressions inside each other, the rest of a program is
*cut*: a call expression without room is left out of the argument list it stands in, and a block
without room becomes empty. Everything else stays as it is. Beside what is left, the cuts are
counted: one for each call that is left out and one for each block that becomes empty, where an
`else` that is not there cannot become empty.

## Main definitions

* `DialogueScript.Expr.prune?`, `DialogueScript.Stmt.prune` — what is left.
* `DialogueScript.Expr.cuts`, `DialogueScript.Stmt.cuts` — how often something was cut.
* `DialogueScript.Stmt.atDepth` — the statements that lie inside a number of blocks.
* `DialogueScript.Stmt.NoCallsAtDepth` — none of them has a call expression of its own.
-/

namespace DialogueScript

/-! ## Expressions -/

mutual

/-- What is left of an expression if there is room for so many calls inside each other: nothing of
a call without room. -/
def Expr.prune? : (room : Nat) → Expr → Option Expr
  | _, .literal kind text => some (.literal kind text)
  | _, .var name => some (.var name)
  | room, .call name args =>
    match room with
    | 0 => none
    | room + 1 => some (.call name (Expr.listPrune room args))
  | _, .binary left op right => some (.binary left op right)

/-- What is left of the arguments of a call expression. -/
def Expr.listPrune : (room : Nat) → List Expr → List Expr
  | _, [] => []
  | room, expr :: later => (expr.prune? room).toList ++ Expr.listPrune room later

end

mutual

/-- The number of calls without room. What stands inside such a call does not count. -/
def Expr.cuts : (room : Nat) → Expr → Nat
  | _, .literal _ _ => 0
  | _, .var _ => 0
  | room, .call _ args =>
    match room with
    | 0 => 1
    | room + 1 => Expr.listCuts room args
  | _, .binary _ _ _ => 0

/-- The number of calls without room in some expressions. -/
def Expr.listCuts : (room : Nat) → List Expr → Nat
  | _, [] => 0
  | room, expr :: later => expr.cuts room + Expr.listCuts room later

end

/-- What is left of an expression that stands directly in a statement. Such an expression is not
left out itself. -/
def Expr.prune (room : Nat) (expr : Expr) : Expr :=
  (expr.prune? room).getD expr

/-- What is left of a condition. -/
def Condition.prune (room : Nat) (condition : Condition) : Condition :=
  ⟨condition.left.map (Expr.prune room), condition.op, condition.right.map (Expr.prune room)⟩

/-- The number of calls without room in a condition. -/
def Condition.cuts (room : Nat) (condition : Condition) : Nat :=
  Expr.listCuts room condition.operands

/-- With room, or without a call, something is left of an expression. -/
lemma Expr.prune?_eq_some {room : Nat} {e : Expr} (h : room = 0 → e.nesting = 0) :
    e.prune? room = some (e.prune room) := by
  cases e with
  | call name args =>
    cases room with
    | zero => simp [Expr.nesting] at h
    | succ room => simp [Expr.prune, Expr.prune?]
  | _ => simp [Expr.prune, Expr.prune?]

/-! ## Statements -/

mutual

/-- What is left of a statement if there is room for so many blocks and calls inside each other. -/
def Stmt.prune : (room : Nat) → Stmt → Stmt
  | room, .assign name value => .assign name (value.prune room)
  | room, .call name args => .call name (args.map (Expr.prune room))
  | room, .declare name params body => .declare name params (Stmt.blockPrune room body)
  | _, .globals names => .globals names
  | _, .locals names => .locals names
  | room, .branch condition thenBody elseBody =>
    .branch (condition.prune room) (Stmt.blockPrune room thenBody) (Stmt.blockPrune room elseBody)
  | room, .select selector cases => .select (selector.prune room) (CaseBlock.listPrune room cases)
  | room, .loop condition body => .loop (condition.prune room) (Stmt.blockPrune room body)
  | room, .ret value => .ret (value.map (Expr.prune room))
  | _, .exitCode => .exitCode

/-- What is left of a block, which takes one place itself. -/
def Stmt.blockPrune : (room : Nat) → List Stmt → List Stmt
  | 0, _ => []
  | _ + 1, [] => []
  | room + 1, stmt :: later => stmt.prune room :: Stmt.blockPrune (room + 1) later

/-- What is left of a case. -/
def CaseBlock.prune : (room : Nat) → CaseBlock → CaseBlock
  | room, ⟨value, body⟩ => ⟨value.prune room, Stmt.blockPrune room body⟩

/-- What is left of some cases. -/
def CaseBlock.listPrune : (room : Nat) → List CaseBlock → List CaseBlock
  | _, [] => []
  | room, block :: later => block.prune room :: CaseBlock.listPrune room later

end

mutual

/-- The number of blocks and calls without room in a statement. A missing `else` is no block, and
what stands inside something without room does not count. -/
def Stmt.cuts : (room : Nat) → Stmt → Nat
  | room, .assign _ value => value.cuts room
  | room, .call _ args => Expr.listCuts room args
  | room, .declare _ _ body => Stmt.blockCuts room body
  | _, .globals _ => 0
  | _, .locals _ => 0
  | room, .branch condition thenBody elseBody =>
    condition.cuts room + Stmt.blockCuts room thenBody +
      if elseBody.isEmpty then 0 else Stmt.blockCuts room elseBody
  | room, .select selector cases => selector.cuts room + CaseBlock.listCuts room cases
  | room, .loop condition body => condition.cuts room + Stmt.blockCuts room body
  | room, .ret value => Expr.listCuts room value.toList
  | _, .exitCode => 0

/-- The number of blocks and calls without room in a block, itself included. -/
def Stmt.blockCuts : (room : Nat) → List Stmt → Nat
  | 0, _ => 1
  | _ + 1, [] => 0
  | room + 1, stmt :: later => stmt.cuts room + Stmt.blockCuts (room + 1) later

/-- The number of blocks and calls without room in a case. -/
def CaseBlock.cuts : (room : Nat) → CaseBlock → Nat
  | room, ⟨value, body⟩ => value.cuts room + Stmt.blockCuts room body

/-- The number of blocks and calls without room in some cases. -/
def CaseBlock.listCuts : (room : Nat) → List CaseBlock → Nat
  | _, [] => 0
  | room, block :: later => block.cuts room + CaseBlock.listCuts room later

end

/-- Nothing is left of a block with nothing in it. -/
@[simp] lemma Stmt.blockPrune_nil (room : Nat) : Stmt.blockPrune room [] = [] := by
  cases room <;> rw [Stmt.blockPrune]

/-- With room each statement of a block is pruned by itself. -/
lemma Stmt.blockPrune_succ (room : Nat) (body : List Stmt) :
    Stmt.blockPrune (room + 1) body = body.map (Stmt.prune room) := by
  induction body with
  | nil => rw [Stmt.blockPrune, List.map_nil]
  | cons s later ih => rw [Stmt.blockPrune, ih, List.map_cons]

/-- With room the cuts in a block are those in its statements. -/
lemma Stmt.blockCuts_succ (room : Nat) (body : List Stmt) :
    Stmt.blockCuts (room + 1) body = (body.map (Stmt.cuts room)).sum := by
  induction body with
  | nil => rw [Stmt.blockCuts, List.map_nil, List.sum_nil]
  | cons s later ih => rw [Stmt.blockCuts, ih, List.map_cons, List.sum_cons]

/-! ## Statements at a depth -/

/-- The statements that lie inside exactly so many of the blocks of a program. -/
def Stmt.atDepth : (depth : Nat) → List Stmt → List Stmt
  | 0, statements => statements
  | depth + 1, statements =>
    Stmt.atDepth depth (statements.flatMap fun stmt => stmt.childBlocks.flatten)

/-- There is no call expression directly in a statement that lies inside exactly so many blocks. -/
def Stmt.NoCallsAtDepth (depth : Nat) (statements : List Stmt) : Prop :=
  ∀ stmt ∈ Stmt.atDepth depth statements, ∀ e ∈ stmt.operands, e.nesting = 0

/-- Whether statements at a depth have no calls in them can be decided. -/
instance (depth : Nat) (statements : List Stmt) :
    Decidable (Stmt.NoCallsAtDepth depth statements) :=
  inferInstanceAs (Decidable (∀ stmt ∈ _, ∀ e ∈ Stmt.operands stmt, e.nesting = 0))

namespace Stmt

variable {depth : Nat} {statements some : List Stmt} {s : Stmt}

/-- Where there are no statements, there are none at any depth. -/
@[simp] lemma atDepth_nil : atDepth depth [] = [] := by
  induction depth with
  | zero => rfl
  | succ depth ih => exact ih

/-- With fewer statements, there are fewer at each depth. -/
lemma atDepth_subset (h : some ⊆ statements) : atDepth depth some ⊆ atDepth depth statements := by
  induction depth generalizing some statements with
  | zero => exact h
  | succ depth ih =>
    refine ih fun s hs => ?_
    obtain ⟨t, ht, hs⟩ := List.mem_flatMap.mp hs
    exact List.mem_flatMap.mpr ⟨t, h ht, hs⟩

/-- If there are no calls at a depth, then there are none with fewer statements. -/
lemma NoCallsAtDepth.of_subset (h : NoCallsAtDepth depth statements) (hsub : some ⊆ statements) :
    NoCallsAtDepth depth some :=
  fun s hs => h s (atDepth_subset hsub hs)

/-- The blocks of a statement lie one block deeper. -/
lemma NoCallsAtDepth.child {room : Nat} (h : NoCallsAtDepth room [s]) (hroom : room = depth + 1)
    {block : List Stmt} (hblock : block ∈ s.childBlocks) : NoCallsAtDepth depth block := by
  subst hroom
  refine NoCallsAtDepth.of_subset h fun t ht => ?_
  simp only [List.flatMap_cons, List.flatMap_nil, List.append_nil]
  exact List.mem_flatten.mpr ⟨block, hblock, ht⟩

/-- At depth zero the statement itself has no call. -/
lemma NoCallsAtDepth.operand (h : NoCallsAtDepth depth [s]) {e : Expr} (he : e ∈ s.operands) :
    depth = 0 → e.nesting = 0 := by
  rintro rfl
  exact h s (List.mem_singleton_self s) e he

end Stmt

end DialogueScript
