import DialogueScript.Proofs.Interpreter.Frames
import Mathlib.Logic.Relation

set_option autoImplicit false

/-!
# Moments of a run

A run is made of *jobs*: an expression to evaluate, a function to call, a statement to execute, each
of them in a scope. On its way a job leads to other jobs, which are its parts or belong to the
functions it calls. A *moment* is a job that is taken up, with the scope and the interpreter it is
taken up with. One rule for each construct says which moments come directly inside another; what
was done in between is described by the runs of the parts, so the rules also apply to jobs that
never end.

The *reachable* moments are those inside some request that the outside world makes of an interpreter
that was once fresh. What holds of a fresh interpreter and is kept by runs and by the beginning of
calls holds at all of them.

## Main definitions

* `DialogueScript.Job`, `DialogueScript.Job.run` — jobs and their runs.
* `DialogueScript.Moment`, `DialogueScript.Enters`, `DialogueScript.Visits` — the moments inside a
  moment, directly and altogether.
* `DialogueScript.Interpreter.Idle` — interpreters between two requests.
* `DialogueScript.Moment.Reachable` — the moments of all sessions.

## Main results

* `DialogueScript.Enters.evolves_or_enter` — how the interpreter changes from a moment to the next.
* `DialogueScript.Visits.invariant` — what is kept on the way holds at all moments.
* `DialogueScript.Moment.Reachable.nested` — each open call has its frame, within the limit.
* `DialogueScript.Moment.Reachable.functionsInRoot` — only the root holds functions.
-/

namespace DialogueScript

open Eval

/-! ## Jobs -/

/-- Something that a run can be asked to do in a scope. -/
inductive Job
  /-- Evaluate an expression. -/
  | expression (e : Expr)
  /-- Evaluate a condition. -/
  | condition (guard : Condition)
  /-- Call a function by name. -/
  | call (name : String) (args : List Value)
  /-- Execute a statement. -/
  | statement (s : Stmt)
  /-- Execute statements in order until one returns. -/
  | block (statements : List Stmt)
  /-- Run the body of the first case whose value equals the selected one. -/
  | choose (selected : Value) (cases : List CaseBlock)

namespace Job

/-- The expressions that a job evaluates before anything else, from left to right. -/
def operands : Job → List Expr
  | expression (.call _ args) => args
  | expression (.binary left _ right) => left.toList ++ right.toList
  | expression _ => []
  | condition guard => guard.operands
  | statement (.select selector _) => [selector]
  | statement s => s.operands
  | call _ _ | block _ | choose _ _ => []

/-- The function that a job calls with the values of its operands. -/
def callee? : Job → Option String
  | expression (.call name _) => some name
  | statement (.call name _) => some name
  | _ => none

variable {σ : Type} [Host σ]

/-- The run of a job in a scope, without its result. -/
def run (fuel : Nat) (scope : ScopeId) : Job → Eval σ Unit
  | expression e => do
    let _ ← evaluate fuel scope e
  | condition guard => do
    let _ ← evaluateCondition fuel scope guard
  | call name args => do
    let _ ← callFunction fuel scope name args
  | statement s => do
    let _ ← execute fuel scope s
  | block statements => do
    let _ ← runStatements fuel scope statements
  | choose selected cases => do
    let body ← selectCase (evaluate fuel scope) selected cases
    let _ ← runStatements fuel scope body

end Job

/-! ## Moments -/

/-- A job that is taken up. -/
structure Moment (σ : Type) where
  /-- The scope of the job. -/
  scope : ScopeId
  /-- The job. -/
  job : Job
  /-- The interpreter that begins with it. -/
  state : Interpreter σ

variable {σ : Type} [Host σ]

/-- The second moment comes directly inside the first one. -/
inductive Enters : Moment σ → Moment σ → Prop
  /-- An operand is evaluated, after those to its left. -/
  | operand {scope : ScopeId} {job : Job} {i j : Interpreter σ} {fuel : Nat}
      {earlier later : List Expr} {e : Expr} {values : List Value}
      (hoperands : job.operands = earlier ++ e :: later)
      (hearlier : valuesOf (evaluate fuel scope) earlier i = (.done values, j)) :
      Enters ⟨scope, job, i⟩ ⟨scope, .expression e, j⟩
  /-- A function is called with the values of all operands. -/
  | callee {scope : ScopeId} {job : Job} {i j : Interpreter σ} {fuel : Nat} {name : String}
      {values : List Value} (hname : job.callee? = some name)
      (hvalues : valuesOf (evaluate fuel scope) job.operands i = (.done values, j)) :
      Enters ⟨scope, job, i⟩ ⟨scope, .call name values, j⟩
  /-- The body of a declared function is run in a frame of its own, if the limit allows. -/
  | body {scope : ScopeId} {name : String} {args : List Value} {i : Interpreter σ}
      {decl : FunctionDecl} (hdecl : i.scopes.function? scope name = some decl)
      (hdepth : i.callDepth < i.limit) :
      Enters ⟨scope, .call name args, i⟩
        ⟨i.scopes.depth, .block decl.body, i.enter decl.params args⟩
  /-- The first statement of a block is executed. -/
  | first {scope : ScopeId} {s : Stmt} {later : List Stmt} {i : Interpreter σ} :
      Enters ⟨scope, .block (s :: later), i⟩ ⟨scope, .statement s, i⟩
  /-- The statements behind it are executed unless it returns. -/
  | later {scope : ScopeId} {s : Stmt} {later : List Stmt} {i j : Interpreter σ} {fuel : Nat}
      (hfirst : execute fuel scope s i = (.done .normal, j)) :
      Enters ⟨scope, .block (s :: later), i⟩ ⟨scope, .block later, j⟩
  /-- One of the blocks of a branch is run. -/
  | branch {scope : ScopeId} {condition : Condition} {thenBody elseBody : List Stmt}
      {i j : Interpreter σ} {fuel : Nat} {value : Value}
      (hcondition : evaluateCondition fuel scope condition i = (.done value, j)) :
      Enters ⟨scope, .statement (.branch condition thenBody elseBody), i⟩
        ⟨scope, .block (if value.isTruthy then thenBody else elseBody), j⟩
  /-- A case is sought for the value of the selector. -/
  | select {scope : ScopeId} {selector : Expr} {cases : List CaseBlock} {i j : Interpreter σ}
      {fuel : Nat} {selected : Value}
      (hselector : evaluate fuel scope selector i = (.done selected, j)) :
      Enters ⟨scope, .statement (.select selector cases), i⟩ ⟨scope, .choose selected cases, j⟩
  /-- The value of the first case is evaluated. -/
  | caseValue {scope : ScopeId} {selected : Value} {block : CaseBlock} {later : List CaseBlock}
      {i : Interpreter σ} :
      Enters ⟨scope, .choose selected (block :: later), i⟩ ⟨scope, .expression block.value, i⟩
  /-- If it is equal to the selected one, the body of the case is run. -/
  | caseBody {scope : ScopeId} {selected value : Value} {block : CaseBlock}
      {later : List CaseBlock} {i j : Interpreter σ} {fuel : Nat}
      (hvalue : evaluate fuel scope block.value i = (.done value, j))
      (heq : selected.scriptEq value = true) :
      Enters ⟨scope, .choose selected (block :: later), i⟩ ⟨scope, .block block.body, j⟩
  /-- If it is not, the search goes on. -/
  | nextCase {scope : ScopeId} {selected value : Value} {block : CaseBlock}
      {later : List CaseBlock} {i j : Interpreter σ} {fuel : Nat}
      (hvalue : evaluate fuel scope block.value i = (.done value, j))
      (hne : selected.scriptEq value = false) :
      Enters ⟨scope, .choose selected (block :: later), i⟩ ⟨scope, .choose selected later, j⟩
  /-- The body of a loop is run if the condition holds. -/
  | round {scope : ScopeId} {condition : Condition} {body : List Stmt} {i j : Interpreter σ}
      {fuel : Nat} {value : Value}
      (hcondition : evaluateCondition fuel scope condition i = (.done value, j))
      (hvalue : value.isTruthy = true) :
      Enters ⟨scope, .statement (.loop condition body), i⟩ ⟨scope, .block body, j⟩
  /-- The loop begins again after its body, unless that returns. -/
  | again {scope : ScopeId} {condition : Condition} {body : List Stmt} {i j k : Interpreter σ}
      {fuel : Nat} {value : Value}
      (hcondition : evaluateCondition fuel scope condition i = (.done value, j))
      (hvalue : value.isTruthy = true)
      (hbody : runStatements fuel scope body j = (.done .normal, k)) :
      Enters ⟨scope, .statement (.loop condition body), i⟩
        ⟨scope, .statement (.loop condition body), k⟩

/-- The second moment is the first one or lies inside it, at whatever depth. -/
abbrev Visits : Moment σ → Moment σ → Prop :=
  Relation.ReflTransGen Enters

/-- The interpreter between two requests of the outside world: it was made fresh, its limit, its
variables, its host and its reports may have been changed from outside, and it has served requests
in the root to their end. -/
inductive Interpreter.Idle : Interpreter σ → Prop
  /-- A fresh interpreter. -/
  | new (host : σ) : Idle (.new host)
  /-- It gets another limit. -/
  | withLimit {i : Interpreter σ} (hi : Idle i) (limit : Nat) : Idle (i.withLimit limit)
  /-- Variables of the whole program are bound. -/
  | withGlobals {i : Interpreter σ} (hi : Idle i) (bindings : List (String × Value)) :
      Idle (i.withGlobals bindings)
  /-- Its reports are taken away. -/
  | clearErrors {i : Interpreter σ} (hi : Idle i) : Idle i.clearErrors
  /-- Something happens to its host. -/
  | withHost {i : Interpreter σ} (hi : Idle i) (host : σ) : Idle { i with host := host }
  /-- It serves a request to its end. -/
  | served {i j : Interpreter σ} {fuel : Nat} {job : Job} {outcome : Outcome Unit} (hi : Idle i)
      (hrun : job.run fuel Scopes.rootId i = (outcome, j)) (hends : outcome.Ends) : Idle j

/-- The moment lies inside a request to an interpreter, in the course of some session. -/
def Moment.Reachable (m : Moment σ) : Prop :=
  ∃ (i : Interpreter σ) (job : Job), i.Idle ∧ Visits ⟨Scopes.rootId, job, i⟩ m

/-- A fresh interpreter over a host without answers, in which some functions have been declared. -/
def Interpreter.declaring (limit : Nat) (decls : List FunctionDecl) : Interpreter BufferHost :=
  ((Job.block (decls.map fun decl => .declare decl.name decl.params decl.body)).run 1
    Scopes.rootId ((Interpreter.new (.withAnswers [])).withLimit limit)).2

/-- An interpreter in which functions have been declared waits for requests. -/
lemma Interpreter.idle_declaring (limit : Nat) (decls : List FunctionDecl) :
    (declaring limit decls).Idle := by
  have hdone : ∀ (decls : List FunctionDecl) (i : Interpreter BufferHost), ∃ j,
      runStatements 1 Scopes.rootId
        (decls.map fun decl => .declare decl.name decl.params decl.body) i =
          (.done .normal, j) := by
    intro decls
    induction decls with
    | nil => exact fun i => ⟨i, rfl⟩
    | cons decl decls ih => exact fun i => ih _
  obtain ⟨j, hj⟩ := hdone decls ((Interpreter.new (.withAnswers [])).withLimit limit)
  have hrun : (Job.block (decls.map fun decl => .declare decl.name decl.params decl.body)).run 1
      Scopes.rootId ((Interpreter.new (.withAnswers [])).withLimit limit) = (.done (), j) :=
    bind_of_done hj
  rw [declaring, hrun]
  exact .served (.withLimit (.new _) limit) hrun trivial

/-! ## Runs of any code -/

section

variable {scope : ScopeId} {i j : Interpreter σ} {α : Type}

/-- A computation that does only what a run can do, where the code may call anything. -/
lemma Eval.Runs.evolves_any {p : Eval σ α} {outcome : Outcome α}
    (hp : Runs (fun _ => True) scope p) (h : p i = (outcome, j)) :
    Evolves (fun _ => True) scope i j :=
  hp.evolves ⟨fun _ _ _ _ _ _ _ => trivial, fun _ _ _ _ _ _ _ _ _ _ => trivial⟩ h

/-- An expression only does what a run in its scope can do. -/
lemma runs_evaluate_any (fuel : Nat) (e : Expr) :
    Runs (fun _ => True) scope (evaluate fuel scope e : Eval σ Value) :=
  (runsWithin σ _ fuel).evaluate scope e fun _ _ => trivial

/-- A call only does what a run in its scope can do. -/
lemma runs_callFunction_any (fuel : Nat) (name : String) (args : List Value) :
    Runs (fun _ => True) scope (callFunction fuel scope name args : Eval σ Value) :=
  (runsWithin σ _ fuel).callFunction scope name args trivial

/-- A statement only does what a run in its scope can do. -/
lemma runs_execute_any (fuel : Nat) (s : Stmt) :
    Runs (fun _ => True) scope (execute fuel scope s : Eval σ Flow) :=
  (runsWithin σ _ fuel).execute scope s fun _ _ => trivial

/-- Arguments only do what a run in their scope can do. -/
lemma runs_valuesOf_any (fuel : Nat) (es : List Expr) :
    Runs (fun _ => True) scope (valuesOf (evaluate fuel scope) es : Eval σ (List Value)) :=
  runs_valuesOf fun e _ => runs_evaluate_any fuel e

/-- A condition only does what a run in its scope can do. -/
lemma runs_evaluateCondition_any (fuel : Nat) (condition : Condition) :
    Runs (fun _ => True) scope (evaluateCondition fuel scope condition : Eval σ Value) :=
  runs_conditionValue fun e _ => runs_evaluate_any fuel e

/-- A block only does what a run in its scope can do. -/
lemma runs_runStatements_any (fuel : Nat) (statements : List Stmt) :
    Runs (fun _ => True) scope (runStatements fuel scope statements : Eval σ Flow) :=
  runs_runAll fun s _ => runs_execute_any fuel s

/-- Every job does only what a run in its scope can do. -/
lemma Job.runs (fuel : Nat) (job : Job) :
    Runs (fun _ => True) scope (job.run fuel scope : Eval σ Unit) := by
  cases job with
  | expression e => exact (runs_evaluate_any fuel e).bind fun _ => runs_pure _
  | condition guard => exact (runs_evaluateCondition_any fuel guard).bind fun _ => runs_pure _
  | call name args => exact (runs_callFunction_any fuel name args).bind fun _ => runs_pure _
  | statement s => exact (runs_execute_any fuel s).bind fun _ => runs_pure _
  | block statements => exact (runs_runStatements_any fuel statements).bind fun _ => runs_pure _
  | choose selected cases =>
    have hselect : Runs (fun _ => True) scope
        (selectCase (evaluate fuel scope) selected cases : Eval σ (List Stmt)) :=
      runs_selectCase fun block _ => runs_evaluate_any fuel block.value
    exact hselect.bind fun body =>
      (runs_runStatements_any fuel body).bind fun _ => runs_pure _

end

/-! ## From moment to moment -/

/-- **How one moment leads to the next**: either the same scope goes on after a run in it, or a call
begins within the limit. -/
lemma Enters.evolves_or_enter {m n : Moment σ} (h : Enters m n) :
    n.scope = m.scope ∧ Evolves (fun _ => True) m.scope m.state n.state ∨
      m.state.callDepth < m.state.limit ∧ n.scope = m.state.scopes.depth ∧
        ∃ params args, n.state = m.state.enter params args := by
  cases h with
  | operand _ hearlier => exact .inl ⟨rfl, (runs_valuesOf_any _ _).evolves_any hearlier⟩
  | callee _ hvalues => exact .inl ⟨rfl, (runs_valuesOf_any _ _).evolves_any hvalues⟩
  | body _ hdepth => exact .inr ⟨hdepth, rfl, _, _, rfl⟩
  | first => exact .inl ⟨rfl, .refl⟩
  | later hfirst => exact .inl ⟨rfl, (runs_execute_any _ _).evolves_any hfirst⟩
  | branch hcondition =>
    exact .inl ⟨rfl, (runs_evaluateCondition_any _ _).evolves_any hcondition⟩
  | select hselector => exact .inl ⟨rfl, (runs_evaluate_any _ _).evolves_any hselector⟩
  | caseValue => exact .inl ⟨rfl, .refl⟩
  | caseBody hvalue _ => exact .inl ⟨rfl, (runs_evaluate_any _ _).evolves_any hvalue⟩
  | nextCase hvalue _ => exact .inl ⟨rfl, (runs_evaluate_any _ _).evolves_any hvalue⟩
  | round hcondition _ =>
    exact .inl ⟨rfl, (runs_evaluateCondition_any _ _).evolves_any hcondition⟩
  | again hcondition _ hbody =>
    have hbefore := (runs_evaluateCondition_any _ _).evolves_any hcondition
    exact .inl ⟨rfl, hbefore.trans ((runs_runStatements_any _ _).evolves_any hbody)⟩

/-- **Invariants of runs**: what runs keep and the beginning of a call keeps holds at every moment
on the way if it holds at the first. -/
lemma Visits.invariant {P : Interpreter σ → Prop}
    (hevolves : ∀ {scope : ScopeId} {i j : Interpreter σ}, Evolves (fun _ => True) scope i j →
      P i → P j)
    (henter : ∀ {i : Interpreter σ} (params : List String) (args : List Value),
      i.callDepth < i.limit → P i → P (i.enter params args))
    {m n : Moment σ} (h : Visits m n) (hm : P m.state) : P n.state := by
  induction h with
  | refl => exact hm
  | tail _ hstep ih =>
    rcases hstep.evolves_or_enter with ⟨-, hrun⟩ | ⟨hdepth, -, params, args, henters⟩
    · exact hevolves hrun ih
    · rw [henters]
      exact henter params args hdepth ih

/-! ## Between and during requests -/

/-- Each open call has its frame, and they are within the limit, which is not too great. -/
structure Interpreter.Nested (i : Interpreter σ) : Prop where
  /-- Besides the root there is a frame for each open call. -/
  size_inner : i.scopes.inner.size = i.callDepth
  /-- There are not more of them than the limit allows. -/
  callDepth_le : i.callDepth ≤ i.limit
  /-- The limit is not beyond the greatest one. -/
  limit_le : i.limit ≤ greatestLimit

/-- What a run does keeps a frame for each open call. -/
lemma Interpreter.Nested.evolves {scope : ScopeId} {i j : Interpreter σ}
    (h : Evolves (fun _ => True) scope i j) (hi : i.Nested) : j.Nested := by
  obtain ⟨hsize, hdepth, hlimit⟩ := h.balanced
  exact ⟨by rw [hsize, hdepth, hi.size_inner], by rw [hdepth, hlimit]; exact hi.callDepth_le,
    by rw [hlimit]; exact hi.limit_le⟩

omit [Host σ] in
/-- A call that the limit allows has its frame. -/
lemma Interpreter.Nested.enter {i : Interpreter σ} (params : List String) (args : List Value)
    (hdepth : i.callDepth < i.limit) (hi : i.Nested) : (i.enter params args).Nested :=
  ⟨by rw [size_inner_enter, callDepth_enter, hi.size_inner], hdepth, hi.limit_le⟩

omit [Host σ] in
/-- To set variables of the whole program only changes the root. -/
lemma Scopes.inner_setGlobals (scopes : Scopes) (bindings : List (String × Value)) :
    (scopes.setGlobals bindings).inner = scopes.inner := by
  induction bindings generalizing scopes with
  | nil => rfl
  | cons binding bindings ih => exact ih (scopes.setGlobal binding.1 binding.2)

/-- Between requests no call is open. -/
lemma Interpreter.Idle.nested {i : Interpreter σ} (h : i.Idle) : i.Nested ∧ i.callDepth = 0 := by
  induction h with
  | new host => exact ⟨⟨rfl, Nat.zero_le _, (by decide : defaultLimit ≤ greatestLimit)⟩, rfl⟩
  | @withLimit i _ limit ih =>
    obtain ⟨hi, hdepth⟩ := ih
    exact ⟨⟨hi.size_inner, hdepth ▸ Nat.zero_le _, Nat.min_le_right limit _⟩, hdepth⟩
  | @withGlobals i _ bindings ih =>
    obtain ⟨hi, hdepth⟩ := ih
    refine ⟨⟨?_, hi.callDepth_le, hi.limit_le⟩, hdepth⟩
    rw [Interpreter.withGlobals, Scopes.inner_setGlobals]
    exact hi.size_inner
  | clearErrors _ ih => exact ⟨⟨ih.1.size_inner, ih.1.callDepth_le, ih.1.limit_le⟩, ih.2⟩
  | withHost _ _ ih => exact ⟨⟨ih.1.size_inner, ih.1.callDepth_le, ih.1.limit_le⟩, ih.2⟩
  | @served i j fuel job _ _ hrun _ ih =>
    have hevolves := (job.runs fuel).evolves_any hrun
    exact ⟨.evolves hevolves ih.1, hevolves.balanced.2.1.trans ih.2⟩

/-- Between requests the root is the only frame. -/
lemma Interpreter.Idle.inner_eq {i : Interpreter σ} (h : i.Idle) : i.scopes.inner = #[] := by
  obtain ⟨hnested, hdepth⟩ := h.nested
  exact Array.eq_empty_of_size_eq_zero (hnested.size_inner.trans hdepth)

/-- **Open calls have their frames, within the limit**, at every reachable moment. -/
lemma Moment.Reachable.nested {m : Moment σ} (h : m.Reachable) : m.state.Nested := by
  obtain ⟨i, job, hidle, hvisits⟩ := h
  exact hvisits.invariant .evolves .enter hidle.nested.1

/-- **Only the root holds functions** at every reachable moment. -/
lemma Moment.Reachable.functionsInRoot {m : Moment σ} (h : m.Reachable) :
    m.state.scopes.FunctionsInRoot := by
  obtain ⟨i, job, hidle, hvisits⟩ := h
  exact hvisits.invariant (P := fun i => i.scopes.FunctionsInRoot) Evolves.functionsInRoot
    (fun params args _ hi => Interpreter.functionsInRoot_enter _ params args hi)
    (.of_inner_eq_empty hidle.inner_eq)

end DialogueScript
