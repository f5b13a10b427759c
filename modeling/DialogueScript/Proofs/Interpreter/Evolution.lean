import DialogueScript.Interpreter.Run
import DialogueScript.Proofs.Scope.Functions
import DialogueScript.Proofs.Script.Callee

set_option autoImplicit false

/-!
# What a run can do

All that a run does to an interpreter is a sequence of a few changes: it binds variables of the
root and of its own frame, registers functions in the root, reports faults, talks to the host, and
makes calls, during which the same changes happen in a frame of their own. This is said once, as a
relation between interpreters, and everything that holds throughout a run follows from it by
induction on the relation.

The relation also says which unknown functions may be reported: only a name that the code calls,
which neither the chain of the scope nor the table of built-in functions knows at that moment.
The code of a run is what it was given together with the bodies of the registered functions.

## Main definitions

* `DialogueScript.Evolves` — what a run can do.
* `DialogueScript.Eval.Runs` — a computation does nothing else.
* `DialogueScript.Interpreter.fresh`, `DialogueScript.Interpreter.Serves` — fresh interpreters,
  and calls from outside one after the other.

## Main results

* `DialogueScript.runsWithin` — expressions, calls and statements do nothing else.
* `DialogueScript.Evolves.everyFunction` — bodies that were registered on the way are code of the
  run too.
-/

namespace DialogueScript

variable {σ : Type} [Host σ] {Called : String → Prop} {scope : ScopeId}

/-- What a run in a scope can do to an interpreter. The names that its code calls are of the kind
`Called`. -/
inductive Evolves (Called : String → Prop) :
    ScopeId → Interpreter σ → Interpreter σ → Prop
  /-- Nothing. -/
  | refl {scope : ScopeId} {i : Interpreter σ} : Evolves Called scope i i
  /-- One thing and then another. -/
  | trans {scope : ScopeId} {i j k : Interpreter σ} (hij : Evolves Called scope i j)
      (hjk : Evolves Called scope j k) : Evolves Called scope i k
  /-- Bind a variable of the root or of the scope. -/
  | define {scope id : ScopeId} {i : Interpreter σ} (hid : id = Scopes.rootId ∨ id = scope)
      (name : String) (value : Value) :
      Evolves Called scope i { i with scopes := i.scopes.define id name value }
  /-- Bind such a variable unless it is bound. -/
  | declare {scope id : ScopeId} {i : Interpreter σ} (hid : id = Scopes.rootId ∨ id = scope)
      (name : String) (value : Value) :
      Evolves Called scope i
        { i with scopes := i.scopes.modify id fun frame => frame.declare name value }
  /-- Register a function in the root. -/
  | register {scope : ScopeId} {i : Interpreter σ} {decl : FunctionDecl}
      (hdecl : decl.CallsOnly Called) :
      Evolves Called scope i
        { i with scopes := i.scopes.defineFunction Scopes.rootId decl }
  /-- Report a fault. -/
  | report {scope : ScopeId} {i : Interpreter σ} {error : RuntimeError}
      (herror : ∀ name, error = .unknownFunction name →
        Called name ∧ i.scopes.function? scope name = none ∧ Builtin.ofName? name = none) :
      Evolves Called scope i { i with errors := i.errors ++ [error] }
  /-- Show a command. -/
  | command {scope : ScopeId} {i : Interpreter σ} (command : Command) :
      Evolves Called scope i { i with host := Host.execute command i.host }
  /-- Ask for an answer. -/
  | answer {scope : ScopeId} {i : Interpreter σ} :
      Evolves Called scope i { i with host := (Host.readAnswer i.host).2 }
  /-- Call a function within the limit, in a frame of its own. -/
  | call {scope : ScopeId} {i j : Interpreter σ} {params : List String} {args : List Value}
      (hdepth : i.callDepth < i.limit)
      (hbody : Evolves Called i.scopes.depth (i.enter params args) j) :
      Evolves Called scope i j.leave

omit [Host σ] in
/-- What pushing a frame and binding variables keep, beginning a call keeps. -/
lemma Interpreter.enter_induction {P : Scopes → Prop} (i : Interpreter σ) (params : List String)
    (args : List Value) (hpush : P (i.scopes.push Scopes.rootId))
    (hdefine : ∀ scopes id name value, P scopes → P (Scopes.define scopes id name value)) :
    P (i.enter params args).scopes := by
  have hbind : ∀ (params : List String) (args : List Value) (scopes : Scopes) (id : ScopeId),
      P scopes → P (bindParameters scopes id params args) := by
    intro params
    induction params with
    | nil => exact fun _ _ _ h => h
    | cons param params ih =>
      intro args scopes id h
      cases args with
      | nil => exact ih [] _ id (hdefine scopes id param .nil h)
      | cons arg args => exact ih args _ id (hdefine scopes id param arg h)
  exact hbind params args _ _ hpush

omit [Host σ] in
/-- Beginning a call registers nothing. -/
lemma Interpreter.everyFunction_enter {P : FunctionDecl → Prop} {i : Interpreter σ}
    (h : i.scopes.EveryFunction P) (params : List String) (args : List Value) :
    (i.enter params args).scopes.EveryFunction P :=
  i.enter_induction params args (h.push Scopes.rootId) fun _ id name value h =>
    h.define id name value

/-- **Everything registered on the way is code of the run**: it calls only what the run may
call. -/
lemma Evolves.everyFunction {i j : Interpreter σ} (h : Evolves Called scope i j) :
    i.scopes.EveryFunction (FunctionDecl.CallsOnly Called) →
      j.scopes.EveryFunction (FunctionDecl.CallsOnly Called) := by
  induction h with
  | refl => exact fun hi => hi
  | trans _ _ ihij ihjk => exact fun hi => ihjk (ihij hi)
  | define _ name value => exact fun hi => hi.define _ name value
  | declare _ name value => exact fun hi => hi.declare _ name value
  | register hdecl => exact fun hi => hi.defineFunction Scopes.rootId hdecl
  | report _ => exact fun hi => hi
  | command _ => exact fun hi => hi
  | answer => exact fun hi => hi
  | call _ _ ih => exact fun hi => (ih (Interpreter.everyFunction_enter hi _ _)).pop

/-! ## Computations -/

namespace Eval

variable {α β : Type} {p : Eval σ α} {f : α → Eval σ β}

omit [Host σ] in
/-- Behind a computation with a result the next one goes on with the result. -/
lemma bind_of_done {i j : Interpreter σ} {a : α} (h : p i = (.done a, j)) :
    (p >>= f) i = f a j := by
  simp only [bind, h]

omit [Host σ] in
/-- Behind an exit nothing comes. -/
lemma bind_of_exitRequested {i j : Interpreter σ} (h : p i = (.exitRequested, j)) :
    (p >>= f) i = (.exitRequested, j) := by
  simp only [bind, h]

omit [Host σ] in
/-- Without fuel nothing comes. -/
lemma bind_of_outOfFuel {i j : Interpreter σ} (h : p i = (.outOfFuel, j)) :
    (p >>= f) i = (.outOfFuel, j) := by
  simp only [bind, h]

omit [Host σ] in
/-- A computation goes on with the result of another exactly if that has one. -/
lemma bind_eq_done_iff {i k : Interpreter σ} {b : β} :
    (p >>= f) i = (.done b, k) ↔ ∃ a j, p i = (.done a, j) ∧ f a j = (.done b, k) := by
  rcases h : p i with ⟨a | _ | _, j⟩
  · simp [bind_of_done h]
  · simp [bind_of_exitRequested h]
  · simp [bind_of_outOfFuel h]

/-- The computation does only what a run in the scope can do. -/
def Runs (Called : String → Prop) (scope : ScopeId) (p : Eval σ α) : Prop :=
  ∀ i, i.scopes.EveryFunction (FunctionDecl.CallsOnly Called) → Evolves Called scope i (p i).2

/-- What a run leaves has evolved from what it found. -/
lemma Runs.evolves {i j : Interpreter σ} {outcome : Outcome α} (hp : Runs Called scope p)
    (hi : i.scopes.EveryFunction (FunctionDecl.CallsOnly Called)) (h : p i = (outcome, j)) :
    Evolves Called scope i j := by
  have hrun := hp i hi
  rwa [h] at hrun

/-- A result that is there at once does nothing. -/
lemma runs_pure (a : α) : Runs Called scope (pure a : Eval σ α) :=
  fun _ _ => .refl

/-- To give up does nothing. -/
lemma runs_giveUp : Runs Called scope (giveUp : Eval σ α) :=
  fun _ _ => .refl

/-- To exit does nothing. -/
lemma runs_exit : Runs Called scope (exit : Eval σ α) :=
  fun _ _ => .refl

/-- A question about the interpreter does nothing. -/
lemma runs_look (g : Interpreter σ → α) : Runs Called scope (look g) :=
  fun _ _ => .refl

/-- A computation and one that goes on with its result, from where the first ended. -/
lemma evolves_bind {i : Interpreter σ}
    (hi : i.scopes.EveryFunction (FunctionDecl.CallsOnly Called))
    (hp : Evolves Called scope i (p i).2)
    (hf : ∀ a j, p i = (.done a, j) → Runs Called scope (f a)) :
    Evolves Called scope i ((p >>= f) i).2 := by
  rcases hpi : p i with ⟨a | _ | _, j⟩
  · rw [hpi] at hp
    rw [bind_of_done hpi]
    exact hp.trans (hf a j hpi j (hp.everyFunction hi))
  · rw [hpi] at hp
    rwa [bind_of_exitRequested hpi]
  · rw [hpi] at hp
    rwa [bind_of_outOfFuel hpi]

/-- Computations in a row do what a run can do. The second one has to do so only for the results
that the first can have. -/
lemma Runs.bind_done (hp : Runs Called scope p)
    (hf : ∀ i a j, p i = (.done a, j) → Runs Called scope (f a)) :
    Runs Called scope (p >>= f) :=
  fun i hi => evolves_bind hi (hp i hi) (hf i)

/-- Computations in a row do what a run can do, if each of them does. -/
lemma Runs.bind (hp : Runs Called scope p) (hf : ∀ a, Runs Called scope (f a)) :
    Runs Called scope (p >>= f) :=
  hp.bind_done fun _ a _ _ => hf a

/-- A question about the interpreter, and what is done with the answer. -/
lemma runs_look_bind {g : Interpreter σ → α}
    (h : ∀ i, i.scopes.EveryFunction (FunctionDecl.CallsOnly Called) →
      Evolves Called scope i (f (g i) i).2) : Runs Called scope (look g >>= f) :=
  h

/-- A report that is not about an unknown function. -/
lemma runs_report {error : RuntimeError} (h : ∀ name, error ≠ .unknownFunction name) :
    Runs Called scope (report error : Eval σ Unit) :=
  fun _ _ => .report fun name hname => absurd hname (h name)

/-- Showing a command is something that a run can do. -/
lemma runs_execute (command : Command) :
    Runs Called scope (Eval.execute command : Eval σ Unit) :=
  fun _ _ => .command command

/-- Asking for an answer is something that a run can do. -/
lemma runs_readAnswer : Runs Called scope (readAnswer : Eval σ (Option String)) :=
  fun _ _ => .answer

end Eval

open Eval

/-! ## Parts without recursion -/

/-- The value of a literal is found with a report at most. -/
lemma runs_literalValue (kind : LiteralKind) (text : String) :
    Runs Called scope (literalValue kind text : Eval σ Value) := by
  cases kind with
  | string => exact runs_pure _
  | boolean => exact runs_pure _
  | number =>
    simp only [literalValue]
    split
    · exact runs_pure _
    · exact (runs_report (by simp)).bind fun _ => runs_pure _

/-- To ask for an answer and read a number in it is something that a run can do. -/
lemma runs_askAnswer : Runs Called scope (Builtin.askAnswer : Eval σ Value) := by
  refine runs_readAnswer.bind fun answer => ?_
  cases answer with
  | none => exact (runs_report (by simp)).bind fun _ => runs_pure _
  | some line =>
    simp only
    split
    · exact runs_pure _
    · exact (runs_report (by simp)).bind fun _ => runs_pure _

/-- Advancing the phase binds a variable of the root, or it is reported. -/
lemma runs_stepPhase : Runs Called scope (Builtin.stepPhase : Eval σ Unit) := by
  refine (runs_look _).bind fun phase => ?_
  cases Builtin.nextPhase? phase with
  | ok next => exact fun _ _ => .define (.inl rfl) _ _
  | error actual => exact runs_report (by simp)

/-- Built-in functions show commands, ask for answers, and bind the phase. -/
lemma runs_builtin (builtin : Builtin) (args : List Value) :
    Runs Called scope (builtin.run args : Eval σ Value) := by
  have hcommand : ∀ command : Option Command,
      Runs Called scope (command.forM Eval.execute : Eval σ Unit) := by
    intro command
    cases command with
    | none => exact runs_pure _
    | some command => exact Eval.runs_execute command
  cases builtin with
  | puppetEvent => exact runs_askAnswer
  | advancePhase => exact runs_stepPhase.bind fun _ => runs_pure _
  | _ => exact (hcommand _).bind fun _ => runs_pure _

section Evaluators

variable {eval : Expr → Eval σ Value} {exec : Stmt → Eval σ Flow}

/-- The value of an operand is found by what a run can do, if it is there and expressions are
evaluated so. -/
lemma runs_operandValue {operand : Option Expr}
    (heval : ∀ e ∈ operand, Runs Called scope (eval e)) :
    Runs Called scope (operandValue eval operand) := by
  cases operand with
  | none => exact runs_pure _
  | some e => exact heval e rfl

/-- Both sides of a comparison are evaluated by what a run can do. -/
lemma runs_comparisonValue {left right : Option Expr} {op : BinaryOp}
    (hleft : ∀ e ∈ left, Runs Called scope (eval e))
    (hright : ∀ e ∈ right, Runs Called scope (eval e)) :
    Runs Called scope (comparisonValue eval left op right) :=
  (runs_operandValue hleft).bind fun _ => (runs_operandValue hright).bind fun _ => runs_pure _

/-- Both sides of a condition are evaluated by what a run can do. -/
lemma runs_conditionValue {condition : Condition}
    (heval : ∀ e ∈ condition.operands, Runs Called scope (eval e)) :
    Runs Called scope (conditionValue eval condition) :=
  runs_comparisonValue (fun e he => heval e (by simp [Condition.operands, Option.mem_def.mp he]))
    (fun e he => heval e (by simp [Condition.operands, Option.mem_def.mp he]))

/-- Expressions are evaluated one after the other by what a run can do. -/
lemma runs_valuesOf {es : List Expr} (heval : ∀ e ∈ es, Runs Called scope (eval e)) :
    Runs Called scope (valuesOf eval es) := by
  induction es with
  | nil => exact runs_pure _
  | cons e es ih =>
    have hlater := ih fun e he => heval e (List.mem_cons_of_mem _ he)
    exact (heval e (by simp)).bind fun _ => hlater.bind fun _ => runs_pure _

/-- Statements are executed one after the other by what a run can do. -/
lemma runs_runAll {block : List Stmt} (hexec : ∀ s ∈ block, Runs Called scope (exec s)) :
    Runs Called scope (runAll exec block) := by
  induction block with
  | nil => exact runs_pure _
  | cons s block ih =>
    refine (hexec s (by simp)).bind fun flow => ?_
    cases flow with
    | normal => exact ih fun s hs => hexec s (List.mem_cons_of_mem _ hs)
    | returned value => exact runs_pure _

/-- Cases are tried one after the other by what a run can do. -/
lemma runs_selectCase {selected : Value} {cases : List CaseBlock}
    (heval : ∀ block ∈ cases, Runs Called scope (eval block.value)) :
    Runs Called scope (selectCase eval selected cases) := by
  induction cases with
  | nil => exact runs_pure _
  | cons block later ih =>
    refine (heval block (by simp)).bind fun value => ?_
    split
    · exact runs_pure _
    · exact ih fun block hblock => heval block (List.mem_cons_of_mem _ hblock)

end Evaluators

omit [Host σ] in
/-- What is selected is the body of a case, or nothing. -/
lemma selectCase_done {eval : Expr → Eval σ Value} {selected : Value} {cases : List CaseBlock}
    {i j : Interpreter σ} {body : List Stmt}
    (h : selectCase eval selected cases i = (.done body, j)) :
    body = [] ∨ ∃ block ∈ cases, block.body = body := by
  induction cases generalizing i with
  | nil =>
    obtain ⟨rfl, -⟩ : [] = body ∧ i = j := by simpa [selectCase, pure] using h
    exact .inl rfl
  | cons block later ih =>
    obtain ⟨value, k, -, hrest⟩ := bind_eq_done_iff.mp h
    split at hrest
    · obtain ⟨rfl, -⟩ : block.body = body ∧ k = j := by simpa [pure] using hrest
      exact .inr ⟨block, by simp, rfl⟩
    · rcases ih hrest with hnil | ⟨found, hfound, hbody⟩
      · exact .inl hnil
      · exact .inr ⟨found, List.mem_cons_of_mem _ hfound, hbody⟩

/-- An assignment binds a variable of the root or of the scope. -/
lemma runs_assign (name : String) (value : Value) :
    Runs Called scope
      (modifyScopes fun scopes => scopes.assign scope name value : Eval σ Unit) := by
  intro i _
  by_cases hroot : i.scopes.root.vars.contains name = true
  · have hassign : i.scopes.assign scope name value =
        i.scopes.define Scopes.rootId name value := if_pos hroot
    simp only [modifyScopes, Eval.modify, hassign]
    exact .define (.inl rfl) name value
  · have hassign : i.scopes.assign scope name value = i.scopes.define scope name value :=
      if_neg hroot
    simp only [modifyScopes, Eval.modify, hassign]
    exact .define (.inr rfl) name value

/-- Declarations of variables of the root or of the scope. -/
lemma runs_declarations {id : ScopeId} (hid : id = Scopes.rootId ∨ id = scope) (value : Value)
    (names : List String) :
    Runs Called scope (modifyScopes fun scopes =>
      names.foldl (fun known name => known.modify id fun frame => frame.declare name value) scopes :
      Eval σ Unit) := by
  induction names with
  | nil => exact fun _ _ => .refl
  | cons name names ih =>
    intro i hi
    have hfirst : Evolves Called scope i
        { i with scopes := i.scopes.modify id fun frame => frame.declare name value } :=
      .declare hid name value
    exact hfirst.trans (ih _ (hfirst.everyFunction hi))

/-! ## Runs -/

/-- A call of a declared function runs its body in a new frame, or nothing at all. -/
lemma runs_callDeclared {exec : ScopeId → Stmt → Eval σ Flow} {decl : FunctionDecl}
    (hexec : ∀ inner, ∀ s ∈ decl.body, Runs Called inner (exec inner s)) (args : List Value) :
    Runs Called scope (callDeclared exec decl args) := by
  refine runs_look_bind fun i hi => ?_
  simp only
  split
  · exact ((runs_report (by simp)).bind fun _ => runs_pure _) i hi
  · next hdepth =>
    have hbody := runs_runAll (hexec i.scopes.depth) (i.enter decl.params args)
      (Interpreter.everyFunction_enter hi _ _)
    refine evolves_bind hi (.call (Nat.lt_of_not_le hdepth) hbody) fun flow _ _ => ?_
    cases flow with
    | normal => exact runs_pure _
    | returned value => exact runs_pure _

/-- With the given fuel, whatever calls only what the run may call does only what a run can do. -/
structure RunsWithin (σ : Type) [Host σ] (Called : String → Prop) (fuel : Nat) : Prop where
  /-- Expressions. -/
  evaluate : ∀ scope e, e.CallsOnly Called →
    Runs Called scope (evaluate fuel scope e : Eval σ Value)
  /-- Calls by name. -/
  callFunction : ∀ scope name args, Called name →
    Runs Called scope (callFunction fuel scope name args : Eval σ Value)
  /-- Statements. -/
  execute : ∀ scope s, s.CallsOnly Called →
    Runs Called scope (execute fuel scope s : Eval σ Flow)

namespace RunsWithin

variable {fuel : Nat}

/-- An expression does what a run can do, if all does that is run with less fuel. -/
lemma evaluate_succ (ih : RunsWithin σ Called fuel) {e : Expr} (he : e.CallsOnly Called) :
    Runs Called scope (DialogueScript.evaluate (fuel + 1) scope e : Eval σ Value) := by
  cases e with
  | literal kind text => exact runs_literalValue kind text
  | var name => exact runs_look _
  | call name args =>
    exact (runs_valuesOf fun arg harg => ih.evaluate scope arg (he.arg arg harg)).bind
      fun values => ih.callFunction scope name values he.callee
  | binary left op right =>
    exact runs_comparisonValue (fun side hside => ih.evaluate scope side (he.left hside))
      fun side hside => ih.evaluate scope side (he.right hside)

/-- A call of a name that may be called does what a run can do, if all does that is run with less
fuel. -/
lemma callFunction_succ (ih : RunsWithin σ Called fuel) {name : String} (hname : Called name)
    (args : List Value) :
    Runs Called scope (DialogueScript.callFunction (fuel + 1) scope name args : Eval σ Value) := by
  refine runs_look_bind fun i hi => ?_
  cases hfound : i.scopes.function? scope name with
  | some decl =>
    -- The body is code of the run because it has been registered.
    have hdecl : decl.CallsOnly Called := hi.of_function? hfound
    exact runs_callDeclared (fun inner s hs => ih.execute inner s (hdecl s hs)) args i hi
  | none =>
    cases hbuiltin : Builtin.ofName? name with
    | some builtin => exact runs_builtin builtin args i hi
    | none =>
      refine evolves_bind hi (.report ?_) fun _ _ _ => runs_pure _
      rintro other ⟨⟩
      exact ⟨hname, hfound, hbuiltin⟩

/-- A statement does what a run can do, if all does that is run with less fuel. -/
lemma execute_succ (ih : RunsWithin σ Called fuel) {s : Stmt} (hs : s.CallsOnly Called) :
    Runs Called scope (DialogueScript.execute (fuel + 1) scope s : Eval σ Flow) := by
  have hoperand := fun e he => ih.evaluate scope e (hs.operand e he)
  have hblock : ∀ block ∈ s.childBlocks, Runs Called scope
      (runAll (fun inner => DialogueScript.execute fuel scope inner) block : Eval σ Flow) :=
    fun block hblock => runs_runAll fun t ht => ih.execute scope t (hs.inside hblock t ht)
  cases s with
  | assign name value =>
    exact (hoperand value (by simp [Stmt.operands])).bind fun result =>
      (runs_assign name result).bind fun _ => runs_pure _
  | call name args =>
    exact (runs_valuesOf hoperand).bind fun values =>
      (ih.callFunction scope name values hs.callee).bind fun _ => runs_pure _
  | declare name params body =>
    refine Runs.bind (fun i _ => .register ?_) fun _ => runs_pure _
    exact hs.inside (by simp [Stmt.childBlocks])
  | globals names => exact (runs_declarations (.inl rfl) _ names).bind fun _ => runs_pure _
  | locals names => exact (runs_declarations (.inr rfl) _ names).bind fun _ => runs_pure _
  | branch condition thenBody elseBody =>
    refine (runs_conditionValue hoperand).bind fun value => ?_
    split
    · exact hblock thenBody (by simp [Stmt.childBlocks])
    · exact hblock elseBody (by simp [Stmt.childBlocks])
  | select selector cases =>
    refine (hoperand selector (by simp [Stmt.operands])).bind fun selected => ?_
    refine Runs.bind_done (runs_selectCase fun block hmem => hoperand block.value ?_)
      fun i body j hbody => ?_
    · simp only [Stmt.operands, List.mem_cons, List.mem_map]
      exact .inr ⟨block, hmem, rfl⟩
    · rcases selectCase_done hbody with rfl | ⟨block, hmem, rfl⟩
      · exact runs_pure _
      · exact hblock block.body (List.mem_map_of_mem hmem)
  | loop condition body =>
    refine (runs_conditionValue hoperand).bind fun value => ?_
    split
    · refine (hblock body (by simp [Stmt.childBlocks])).bind fun flow => ?_
      cases flow with
      | normal => exact ih.execute scope _ hs
      | returned result => exact runs_pure _
    · exact runs_pure _
  | ret value =>
    refine Runs.bind (runs_operandValue fun e he => hoperand e ?_) fun _ => runs_pure _
    simpa [Stmt.operands] using he
  | exitCode => exact runs_exit

end RunsWithin

/-- **Runs do nothing else**: whatever is evaluated, called or executed does only what a run can
do.

**Proof sketch.** By induction on the fuel. Each construct is a sequence of simpler ones, to which
the induction hypothesis applies. -/
theorem runsWithin (σ : Type) [Host σ] (Called : String → Prop) (fuel : Nat) :
    RunsWithin σ Called fuel := by
  induction fuel with
  | zero =>
    exact ⟨fun _ _ _ => runs_giveUp, fun _ _ _ _ => runs_giveUp, fun _ _ _ => runs_giveUp⟩
  | succ fuel ih =>
    exact ⟨fun _ _ he => ih.evaluate_succ he, fun _ _ args hname => ih.callFunction_succ hname args,
      fun _ _ hs => ih.execute_succ hs⟩

/-- Statements in order do only what a run can do. -/
lemma runs_runStatements (fuel : Nat) {statements : List Stmt}
    (h : ∀ s ∈ statements, s.CallsOnly Called) :
    Runs Called scope (runStatements fuel scope statements : Eval σ Flow) :=
  runs_runAll fun s hs => (runsWithin σ Called fuel).execute scope s (h s hs)

/-- A script does only what a run in the root can do. -/
lemma runs_runScript (fuel : Nat) {script : Script}
    (h : ∀ s ∈ script.statements, s.CallsOnly Called) :
    Runs Called Scopes.rootId (runScript fuel script : Eval σ Unit) :=
  (runs_runStatements fuel h).bind fun _ => runs_pure _

/-! ## Requests from outside -/

/-- The computation has been followed to its end. -/
def Outcome.Ends {α : Type} : Outcome α → Prop
  | .done _ => True
  | .exitRequested => True
  | .outOfFuel => False

namespace Interpreter

/-- A fresh interpreter over a host, with a limit on calls inside each other and with some
variables of the whole program. -/
def fresh (host : σ) (limit : Nat) (globals : List (String × Value)) : Interpreter σ :=
  ((Interpreter.new host).withLimit limit).withGlobals globals

/-- The outside world makes some calls in the root, one after the other, and each of them ends. -/
inductive Serves : Interpreter σ → List (String × List Value) → Interpreter σ → Prop
  /-- No call. -/
  | nil {i : Interpreter σ} : Serves i [] i
  /-- A call, and others after it. -/
  | cons {i j k : Interpreter σ} {fuel : Nat} {name : String} {args : List Value}
      {outcome : Outcome Value} {later : List (String × List Value)}
      (hcall : callFunction fuel Scopes.rootId name args i = (outcome, j))
      (hends : outcome.Ends) (hlater : Serves j later k) : Serves i ((name, args) :: later) k

omit [Host σ] in
/-- What binding variables keeps, a fresh interpreter has if no bindings have it. -/
lemma fresh_induction {P : Scopes → Prop} (host : σ) (limit : Nat)
    (globals : List (String × Value)) (hempty : P Scopes.empty)
    (hdefine : ∀ scopes id name value, P scopes → P (Scopes.define scopes id name value)) :
    P (fresh host limit globals).scopes := by
  have hset : ∀ (bindings : List (String × Value)) (scopes : Scopes), P scopes →
      P (scopes.setGlobals bindings) := by
    intro bindings
    induction bindings with
    | nil => exact fun _ h => h
    | cons binding bindings ih => exact fun scopes h => ih _ (hdefine scopes _ _ _ h)
  exact hset globals _ hempty

omit [Host σ] in
/-- A fresh interpreter has no functions. -/
lemma everyFunction_fresh {P : FunctionDecl → Prop} (host : σ) (limit : Nat)
    (globals : List (String × Value)) : (fresh host limit globals).scopes.EveryFunction P :=
  fresh_induction host limit globals .empty fun _ id name value h => h.define id name value

/-- Requests do only what runs in the root can do. -/
lemma Serves.evolves {i j : Interpreter σ} {requests : List (String × List Value)}
    (h : Serves i requests j) (hcalled : ∀ request ∈ requests, Called request.1)
    (hi : i.scopes.EveryFunction (FunctionDecl.CallsOnly Called)) :
    Evolves Called Scopes.rootId i j := by
  induction h with
  | nil => exact .refl
  | @cons i j k fuel name args outcome later hcall _ _ ih =>
    have hfirst := ((runsWithin σ Called fuel).callFunction Scopes.rootId name args
      (hcalled (name, args) (by simp))).evolves hi hcall
    exact hfirst.trans (ih (fun r hr => hcalled r (List.mem_cons_of_mem _ hr))
      (hfirst.everyFunction hi))

end Interpreter

end DialogueScript
