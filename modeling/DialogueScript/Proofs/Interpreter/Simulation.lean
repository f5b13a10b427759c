import DialogueScript.Proofs.Interpreter.Moment

set_option autoImplicit false

/-!
# Simulation

Two interpreters, possibly over different hosts, are compared by a relation that may depend on the
scope of the run. If what a run can see is the same in related interpreters, and everything that a
run can do leads from related interpreters to related ones, then whatever is run in both ends in the
same way and in related interpreters. The second run may be given more fuel than the first, so that
ending is all that is asked of the first.

The code of a run can be restricted to statements of some kind, as long as the statements inside
them are of that kind and related interpreters only hold functions made of them.

Comparing an interpreter with itself gives two facts about every run: more fuel does not change how
it ends, and it only registers functions of the kind of its code.

## Main definitions

* `DialogueScript.EndsLike` — one run ends as another one does, if that ends.
* `DialogueScript.Eval.Simulated` — so it is from all related interpreters.
* `DialogueScript.answerText` — what a script gets of an answer.
* `DialogueScript.Simulation` — relations that every step of a run keeps.

## Main results

* `DialogueScript.Simulation.simulatesWithin` — such relations are kept by whole runs.
* `DialogueScript.simulation_self` — the comparison of an interpreter with itself.
* `DialogueScript.steady_evaluate`, `DialogueScript.steady_callFunction`,
  `DialogueScript.steady_execute`, `DialogueScript.steady_runScript` — more fuel does not change
  how a run ends.
* `DialogueScript.everyFunction_of_simulated` — what is registered is of the kind of the code.
-/

namespace DialogueScript

variable {σ τ : Type}

/-! ## Computations -/

/-- If the first run ends, then the second ends in the same way, and the interpreters are related
at the end. -/
def EndsLike {α : Type} (R : Interpreter σ → Interpreter τ → Prop)
    (first : Outcome α × Interpreter σ) (second : Outcome α × Interpreter τ) : Prop :=
  first.1.Ends → second.1 = first.1 ∧ R first.2 second.2

namespace Eval

variable {α β : Type} {R : Interpreter σ → Interpreter τ → Prop} {p : Eval σ α} {q : Eval τ α}
  {f : α → Eval σ β} {g : α → Eval τ β}

/-- From related interpreters, the second computation ends as the first one does, if that ends. -/
def Simulated (R : Interpreter σ → Interpreter τ → Prop) (p : Eval σ α) (q : Eval τ α) : Prop :=
  ∀ i i', R i i' → EndsLike R (p i) (q i')

/-- If the first computation ends, there is an end of the second one with the same outcome. -/
lemma Simulated.exists_eq {i j : Interpreter σ} {i' : Interpreter τ} {outcome : Outcome α}
    (h : Simulated R p q) (hi : R i i') (hp : p i = (outcome, j)) (hends : outcome.Ends) :
    ∃ j', q i' = (outcome, j') ∧ R j j' := by
  have hlike := h i i' hi
  rw [hp] at hlike
  obtain ⟨houtcome, hj⟩ := hlike hends
  exact ⟨(q i').2, Prod.ext houtcome rfl, hj⟩

/-- Two computations and what goes on with their common result. -/
lemma endsLike_bind {i : Interpreter σ} {i' : Interpreter τ} (hp : EndsLike R (p i) (q i'))
    (hf : ∀ a j j', p i = (.done a, j) → R j j' → EndsLike R (f a j) (g a j')) :
    EndsLike R ((p >>= f) i) ((q >>= g) i') := by
  rcases hpi : p i with ⟨a | _ | _, j⟩
  · rw [hpi] at hp
    obtain ⟨houtcome, hj⟩ := hp trivial
    have hqi : q i' = (.done a, (q i').2) := Prod.ext houtcome rfl
    rw [bind_of_done hpi, bind_of_done hqi]
    exact hf a j _ hpi hj
  · rw [hpi] at hp
    obtain ⟨houtcome, hj⟩ := hp trivial
    have hqi : q i' = (.exitRequested, (q i').2) := Prod.ext houtcome rfl
    rw [bind_of_exitRequested hpi, bind_of_exitRequested hqi]
    exact fun _ => ⟨rfl, hj⟩
  · rw [bind_of_outOfFuel hpi]
    exact False.elim

/-- Computations in a row end alike. The later ones have to do so only for the results that the
first can have. -/
lemma Simulated.bind_done (hp : Simulated R p q)
    (hf : ∀ i a j, p i = (.done a, j) → Simulated R (f a) (g a)) :
    Simulated R (p >>= f) (q >>= g) :=
  fun i i' hi => endsLike_bind (hp i i' hi) fun a j j' hpi hj => hf i a j hpi j j' hj

/-- Computations in a row end alike, if each of them does. -/
lemma Simulated.bind (hp : Simulated R p q) (hf : ∀ a, Simulated R (f a) (g a)) :
    Simulated R (p >>= f) (q >>= g) :=
  hp.bind_done fun _ a _ _ => hf a

/-- A result without a computation is alike everywhere. -/
lemma simulated_pure (a : α) : Simulated R (pure a : Eval σ α) (pure a) :=
  fun _ _ hi _ => ⟨rfl, hi⟩

/-- A computation that gives up has no end, so any other one simulates it. -/
lemma simulated_giveUp (q : Eval τ α) : Simulated R (giveUp : Eval σ α) q :=
  fun _ _ _ => False.elim

/-- A request to exit ends alike everywhere. -/
lemma simulated_exit : Simulated R (exit : Eval σ α) exit :=
  fun _ _ hi _ => ⟨rfl, hi⟩

/-- A question ends alike, if related interpreters give the same answer to it. -/
lemma simulated_look {a : Interpreter σ → α} {b : Interpreter τ → α}
    (h : ∀ i i', R i i' → b i' = a i) : Simulated R (look a) (look b) :=
  fun i i' hi _ => ⟨congrArg Outcome.done (h i i' hi), hi⟩

/-- A question that both interpreters answer in the same way, and what is done with the answer. -/
lemma endsLike_look_bind {i : Interpreter σ} {i' : Interpreter τ} {a : Interpreter σ → α}
    {b : Interpreter τ → α} (hab : b i' = a i) (h : EndsLike R (f (a i) i) (g (a i) i')) :
    EndsLike R ((look a >>= f) i) ((look b >>= g) i') := by
  change EndsLike R (f (a i) i) (g (b i') i')
  rw [hab]
  exact h

/-- A change ends alike, if it keeps interpreters related. -/
lemma simulated_modify {a : Interpreter σ → Interpreter σ} {b : Interpreter τ → Interpreter τ}
    (h : ∀ i i', R i i' → R (a i) (b i')) : Simulated R (modify a) (modify b) :=
  fun i i' hi _ => ⟨rfl, h i i' hi⟩

end Eval

open Eval

/-! ## Parts without recursion -/

section Evaluators

variable {R : Interpreter σ → Interpreter τ → Prop} {eval : Expr → Eval σ Value}
  {eval' : Expr → Eval τ Value} {exec : Stmt → Eval σ Flow} {exec' : Stmt → Eval τ Flow}

/-- The values of an operand that may be missing are alike, if those of expressions are. -/
lemma simulated_operandValue (heval : ∀ e, Simulated R (eval e) (eval' e))
    (operand : Option Expr) :
    Simulated R (operandValue eval operand) (operandValue eval' operand) := by
  cases operand with
  | none => exact simulated_pure _
  | some e => exact heval e

/-- Comparisons end alike, if their sides do. -/
lemma simulated_comparisonValue (heval : ∀ e, Simulated R (eval e) (eval' e))
    (left : Option Expr) (op : BinaryOp) (right : Option Expr) :
    Simulated R (comparisonValue eval left op right) (comparisonValue eval' left op right) :=
  (simulated_operandValue heval left).bind fun _ =>
    (simulated_operandValue heval right).bind fun _ => simulated_pure _

/-- Conditions end alike, if their sides do. -/
lemma simulated_conditionValue (heval : ∀ e, Simulated R (eval e) (eval' e))
    (condition : Condition) :
    Simulated R (conditionValue eval condition) (conditionValue eval' condition) :=
  simulated_comparisonValue heval _ _ _

/-- Expressions that are evaluated one after the other end alike, if each of them does. -/
lemma simulated_valuesOf (heval : ∀ e, Simulated R (eval e) (eval' e)) (es : List Expr) :
    Simulated R (valuesOf eval es) (valuesOf eval' es) := by
  induction es with
  | nil => exact simulated_pure _
  | cons e es ih => exact (heval e).bind fun _ => ih.bind fun _ => simulated_pure _

/-- The same case is selected, if the values of the cases are alike. -/
lemma simulated_selectCase (heval : ∀ e, Simulated R (eval e) (eval' e)) (selected : Value)
    (cases : List CaseBlock) :
    Simulated R (selectCase eval selected cases) (selectCase eval' selected cases) := by
  induction cases with
  | nil => exact simulated_pure _
  | cons block later ih =>
    refine (heval block.value).bind fun value => ?_
    split
    · exact simulated_pure _
    · exact ih

/-- Statements that are run one after the other end alike, if each of them does. -/
lemma simulated_runAll {block : List Stmt}
    (hexec : ∀ s ∈ block, Simulated R (exec s) (exec' s)) :
    Simulated R (runAll exec block) (runAll exec' block) := by
  induction block with
  | nil => exact simulated_pure _
  | cons s block ih =>
    refine (hexec s (by simp)).bind fun flow => ?_
    cases flow with
    | normal => exact ih fun t ht => hexec t (List.mem_cons_of_mem _ ht)
    | returned value => exact simulated_pure _

end Evaluators

/-! ## Answers -/

/-- What a script gets of an answer: the text without the blanks around it. -/
def answerText (answer : Option String) : Option (List Char) :=
  answer.map fun line => Text.trim line.toList

/-- The value of an answer, given by its text. -/
def answerValue : Option (List Char) → Eval σ Value
  | none => do
    report .noAnswer
    return .nil
  | some input =>
    match Text.readInt64? input with
    | some n => return .integer n
    | none => do
      report (.invalidAnswer (String.ofList input))
      return .nil

/-- Asking for an answer only depends on its text. -/
lemma askAnswer_apply [Host σ] (i : Interpreter σ) :
    Builtin.askAnswer i = answerValue (answerText (Host.readAnswer i.host).1)
      { i with host := (Host.readAnswer i.host).2 } := by
  have hread : (readAnswer : Eval σ (Option String)) i =
      (.done (Host.readAnswer i.host).1, { i with host := (Host.readAnswer i.host).2 }) := rfl
  rw [Builtin.askAnswer, bind_of_done hread]
  cases (Host.readAnswer i.host).1 with
  | none => rfl
  | some line => rfl

/-! ## Relations that runs keep -/

/-- The body of the function is made of statements of the given kind. -/
def FunctionDecl.MadeOf (Code : Stmt → Prop) (decl : FunctionDecl) : Prop :=
  ∀ s ∈ decl.body, Code s

variable [Host σ] [Host τ]

/-- A relation between interpreters, depending on the scope of a run, that everything keeps which a
run of code of some kind can do, and that makes all alike what such a run can see. -/
structure Simulation (Code : Stmt → Prop)
    (R : ScopeId → Interpreter σ → Interpreter τ → Prop) : Prop where
  /-- The statements inside a statement of the kind are of the kind. -/
  inside : ∀ {s : Stmt}, Code s → ∀ block ∈ s.childBlocks, ∀ t ∈ block, Code t
  /-- Variables have the same values. -/
  lookup : ∀ {scope : ScopeId} {i : Interpreter σ} {i' : Interpreter τ}, R scope i i' →
    ∀ name, i'.scopes.lookup scope name = i.scopes.lookup scope name
  /-- Variables of the whole program have the same values. -/
  global? : ∀ {scope : ScopeId} {i : Interpreter σ} {i' : Interpreter τ}, R scope i i' →
    ∀ name, i'.scopes.global? name = i.scopes.global? name
  /-- The same functions are found. -/
  function? : ∀ {scope : ScopeId} {i : Interpreter σ} {i' : Interpreter τ}, R scope i i' →
    ∀ name, i'.scopes.function? scope name = i.scopes.function? scope name
  /-- They are of the kind of the code. -/
  code : ∀ {scope : ScopeId} {i : Interpreter σ} {i' : Interpreter τ}, R scope i i' →
    ∀ name decl, i.scopes.function? scope name = some decl → decl.MadeOf Code
  /-- As many calls and frames are there, and the limit is the same. -/
  calls : ∀ {scope : ScopeId} {i : Interpreter σ} {i' : Interpreter τ}, R scope i i' →
    i'.callDepth = i.callDepth ∧ i'.limit = i.limit ∧ i'.scopes.depth = i.scopes.depth
  /-- The host gives the same answer, up to the blanks around it. -/
  answer : ∀ {scope : ScopeId} {i : Interpreter σ} {i' : Interpreter τ}, R scope i i' →
    answerText (Host.readAnswer i'.host).1 = answerText (Host.readAnswer i.host).1 ∧
      R scope { i with host := (Host.readAnswer i.host).2 }
        { i' with host := (Host.readAnswer i'.host).2 }
  /-- A command is shown. -/
  command : ∀ {scope : ScopeId} {i : Interpreter σ} {i' : Interpreter τ}, R scope i i' →
    ∀ command, R scope { i with host := Host.execute command i.host }
      { i' with host := Host.execute command i'.host }
  /-- A fault is reported. -/
  report : ∀ {scope : ScopeId} {i : Interpreter σ} {i' : Interpreter τ}, R scope i i' →
    ∀ error, R scope { i with errors := i.errors ++ [error] }
      { i' with errors := i'.errors ++ [error] }
  /-- A variable of the root or of the scope is bound. -/
  define : ∀ {scope id : ScopeId} {i : Interpreter σ} {i' : Interpreter τ}, R scope i i' →
    id = Scopes.rootId ∨ id = scope → ∀ name value,
      R scope { i with scopes := i.scopes.define id name value }
        { i' with scopes := i'.scopes.define id name value }
  /-- Such a variable is bound unless it is bound already. -/
  declare : ∀ {scope id : ScopeId} {i : Interpreter σ} {i' : Interpreter τ}, R scope i i' →
    id = Scopes.rootId ∨ id = scope → ∀ name value,
      R scope { i with scopes := i.scopes.modify id fun frame => frame.declare name value }
        { i' with scopes := i'.scopes.modify id fun frame => frame.declare name value }
  /-- A function of the kind of the code is registered. -/
  register : ∀ {scope : ScopeId} {i : Interpreter σ} {i' : Interpreter τ}, R scope i i' →
    ∀ decl, FunctionDecl.MadeOf Code decl →
      R scope { i with scopes := i.scopes.defineFunction Scopes.rootId decl }
        { i' with scopes := i'.scopes.defineFunction Scopes.rootId decl }
  /-- A call begins within the limit. -/
  enter : ∀ {scope : ScopeId} {i : Interpreter σ} {i' : Interpreter τ}, R scope i i' →
    i.callDepth < i.limit → ∀ params args,
      R i.scopes.depth (i.enter params args) (i'.enter params args)
  /-- The call is over. -/
  leave : ∀ {scope : ScopeId} {i j : Interpreter σ} {i' j' : Interpreter τ}
    {params : List String} {args : List Value}, R scope i i' →
      Evolves (fun _ => True) i.scopes.depth (i.enter params args) j →
      R i.scopes.depth j j' → R scope j.leave j'.leave

namespace Simulation

variable {Code : Stmt → Prop} {R : ScopeId → Interpreter σ → Interpreter τ → Prop}
  {scope : ScopeId}

/-- Reports end alike. -/
lemma simulated_report (sim : Simulation Code R) (error : RuntimeError) :
    Simulated (R scope) (Eval.report error) (Eval.report error) :=
  simulated_modify fun _ _ hi => sim.report hi error

/-- The values of literals are alike. -/
lemma simulated_literalValue (sim : Simulation Code R) (kind : LiteralKind) (text : String) :
    Simulated (R scope) (literalValue kind text) (literalValue kind text) := by
  cases kind with
  | string => exact simulated_pure _
  | boolean => exact simulated_pure _
  | number =>
    simp only [literalValue]
    split
    · exact simulated_pure _
    · exact (sim.simulated_report _).bind fun _ => simulated_pure _

/-- The values of the same answer are alike. -/
lemma simulated_answerValue (sim : Simulation Code R) (text : Option (List Char)) :
    Simulated (R scope) (answerValue text : Eval σ Value) (answerValue text) := by
  cases text with
  | none => exact (sim.simulated_report _).bind fun _ => simulated_pure _
  | some input =>
    simp only [answerValue]
    split
    · exact simulated_pure _
    · exact (sim.simulated_report _).bind fun _ => simulated_pure _

/-- The answers for which a script asks are alike. -/
lemma simulated_askAnswer (sim : Simulation Code R) :
    Simulated (R scope) (Builtin.askAnswer : Eval σ Value) Builtin.askAnswer := by
  intro i i' hi
  obtain ⟨hanswer, hhost⟩ := sim.answer hi
  rw [askAnswer_apply, askAnswer_apply, hanswer]
  exact sim.simulated_answerValue _ _ _ hhost

/-- Related interpreters advance the phase alike. -/
lemma simulated_stepPhase (sim : Simulation Code R) :
    Simulated (R scope) (Builtin.stepPhase : Eval σ Unit) Builtin.stepPhase := by
  have hphase : Simulated (R scope)
      (look fun i : Interpreter σ => i.scopes.global? Builtin.phaseName)
      (look fun i : Interpreter τ => i.scopes.global? Builtin.phaseName) :=
    simulated_look fun _ _ hi => sim.global? hi _
  refine hphase.bind fun phase => ?_
  cases Builtin.nextPhase? phase with
  | ok next => exact simulated_modify fun _ _ hi => sim.define hi (.inl rfl) _ _
  | error actual => exact sim.simulated_report _

/-- The functions that are built in end alike. -/
lemma simulated_builtin (sim : Simulation Code R) (builtin : Builtin) (args : List Value) :
    Simulated (R scope) (builtin.run args : Eval σ Value) (builtin.run args) := by
  have hcommand : ∀ command : Option Command,
      Simulated (R scope) (command.forM Eval.execute : Eval σ Unit)
        (command.forM Eval.execute) := by
    intro command
    cases command with
    | none => exact simulated_pure _
    | some command => exact simulated_modify fun _ _ hi => sim.command hi command
  cases builtin with
  | puppetEvent => exact sim.simulated_askAnswer
  | advancePhase => exact sim.simulated_stepPhase.bind fun _ => simulated_pure _
  | _ => exact (hcommand _).bind fun _ => simulated_pure _

/-- Assignments end alike. -/
lemma simulated_assign (sim : Simulation Code R) (name : String) (value : Value) :
    Simulated (R scope)
      (modifyScopes fun scopes => scopes.assign scope name value : Eval σ Unit)
      (modifyScopes fun scopes => scopes.assign scope name value) := by
  refine simulated_modify fun i i' hi => ?_
  have hbound : i'.scopes.root.vars.contains name = i.scopes.root.vars.contains name := by
    rw [Std.TreeMap.contains_eq_isSome_getElem?, Std.TreeMap.contains_eq_isSome_getElem?]
    exact congrArg Option.isSome (sim.global? hi name)
  simp only [Scopes.assign, hbound]
  split
  · exact sim.define hi (.inl rfl) name value
  · exact sim.define hi (.inr rfl) name value

/-- Declarations in the root or in the scope of the run end alike. -/
lemma simulated_declarations (sim : Simulation Code R) {id : ScopeId}
    (hid : id = Scopes.rootId ∨ id = scope) (value : Value) (names : List String) :
    Simulated (R scope)
      (modifyScopes fun scopes => names.foldl
        (fun known name => known.modify id fun frame => frame.declare name value) scopes :
        Eval σ Unit)
      (modifyScopes fun scopes => names.foldl
        (fun known name => known.modify id fun frame => frame.declare name value) scopes) := by
  refine simulated_modify ?_
  induction names with
  | nil => exact fun _ _ hi => hi
  | cons name names ih => exact fun i i' hi => ih _ _ (sim.declare hi hid name value)

/-! ## Runs -/

/-- A call in a frame of its own. -/
lemma endsLike_inCall (sim : Simulation Code R) {i : Interpreter σ} {i' : Interpreter τ}
    {α : Type} {params : List String} {args : List Value} {body : ScopeId → Eval σ α}
    {body' : ScopeId → Eval τ α} (hi : R scope i i') (hdepth : i.callDepth < i.limit)
    (hruns : ∀ inner, Runs (fun _ => True) inner (body inner))
    (hbody : ∀ inner, Simulated (R inner) (body inner) (body' inner)) :
    EndsLike (R scope) (inCall params args body i) (inCall params args body' i') := by
  intro hends
  obtain ⟨-, -, hsame⟩ := sim.calls hi
  have hevolves : Evolves (fun _ => True) i.scopes.depth (i.enter params args)
      (body i.scopes.depth (i.enter params args)).2 :=
    (hruns _).evolves_any rfl
  obtain ⟨houtcome, hj⟩ := hbody i.scopes.depth _ _ (sim.enter hi hdepth params args) hends
  have hcall : inCall params args body' i' =
      ((body' i.scopes.depth (i'.enter params args)).1,
        (body' i.scopes.depth (i'.enter params args)).2.leave) := by
    rw [← hsame]
    rfl
  rw [hcall]
  exact ⟨houtcome, sim.leave hi hevolves hj⟩

/-- Calls of a declared function end alike, if its body does. -/
lemma simulated_callDeclared (sim : Simulation Code R) {exec : ScopeId → Stmt → Eval σ Flow}
    {exec' : ScopeId → Stmt → Eval τ Flow} {decl : FunctionDecl}
    (hruns : ∀ inner s, Runs (fun _ => True) inner (exec inner s))
    (hexec : ∀ inner, ∀ s ∈ decl.body, Simulated (R inner) (exec inner s) (exec' inner s))
    (args : List Value) :
    Simulated (R scope) (callDeclared exec decl args) (callDeclared exec' decl args) := by
  intro i i' hi
  obtain ⟨hcallDepth, hlimit, -⟩ := sim.calls hi
  refine endsLike_look_bind (by rw [hcallDepth, hlimit]) ?_
  simp only
  split
  · exact ((sim.simulated_report _).bind fun _ => simulated_pure _) i i' hi
  · next hdepth =>
    refine endsLike_bind (sim.endsLike_inCall hi (Nat.lt_of_not_le hdepth)
      (fun inner => runs_runAll fun s _ => hruns inner s)
      (fun inner => simulated_runAll (hexec inner))) fun flow j j' _ hj => ?_
    cases flow with
    | normal => exact simulated_pure _ j j' hj
    | returned value => exact simulated_pure _ j j' hj

/-- With the first amount of fuel, whatever is run ends as it does with the second one. -/
structure SimulatesWithin (Code : Stmt → Prop)
    (R : ScopeId → Interpreter σ → Interpreter τ → Prop) (fuel fuel' : Nat) : Prop where
  /-- Expressions. -/
  evaluate : ∀ scope e, Simulated (R scope) (evaluate fuel scope e) (evaluate fuel' scope e)
  /-- Calls by name. -/
  callFunction : ∀ scope name args,
    Simulated (R scope) (callFunction fuel scope name args) (callFunction fuel' scope name args)
  /-- Statements of the kind of the code. -/
  execute : ∀ scope s, Code s →
    Simulated (R scope) (execute fuel scope s) (execute fuel' scope s)

namespace SimulatesWithin

variable {fuel fuel' : Nat}

/-- An expression ends alike, if all does that is run with less fuel. -/
lemma evaluate_succ (sim : Simulation Code R) (ih : SimulatesWithin Code R fuel fuel') (e : Expr) :
    Simulated (R scope) (DialogueScript.evaluate (fuel + 1) scope e)
      (DialogueScript.evaluate (fuel' + 1) scope e) := by
  cases e with
  | literal kind text => exact sim.simulated_literalValue kind text
  | var name => exact simulated_look fun _ _ hi => sim.lookup hi name
  | call name args =>
    exact (simulated_valuesOf (ih.evaluate scope) args).bind fun values =>
      ih.callFunction scope name values
  | binary left op right => exact simulated_comparisonValue (ih.evaluate scope) left op right

/-- A call ends alike, if all does that is run with less fuel. -/
lemma callFunction_succ (sim : Simulation Code R) (ih : SimulatesWithin Code R fuel fuel')
    (name : String) (args : List Value) :
    Simulated (R scope) (DialogueScript.callFunction (fuel + 1) scope name args)
      (DialogueScript.callFunction (fuel' + 1) scope name args) := by
  intro i i' hi
  refine endsLike_look_bind (sim.function? hi name) ?_
  cases hdecl : i.scopes.function? scope name with
  | some decl =>
    have hcode : decl.MadeOf Code := sim.code hi name decl hdecl
    exact sim.simulated_callDeclared (fun inner s => runs_execute_any fuel s)
      (fun inner s hs => ih.execute inner s (hcode s hs)) args i i' hi
  | none =>
    cases Builtin.ofName? name with
    | some builtin => exact sim.simulated_builtin builtin args i i' hi
    | none => exact ((sim.simulated_report _).bind fun _ => simulated_pure _) i i' hi

/-- A statement of the given kind ends alike, if all does that is run with less fuel. -/
lemma execute_succ (sim : Simulation Code R) (ih : SimulatesWithin Code R fuel fuel') {s : Stmt}
    (hs : Code s) :
    Simulated (R scope) (DialogueScript.execute (fuel + 1) scope s)
      (DialogueScript.execute (fuel' + 1) scope s) := by
  have hblock : ∀ block ∈ s.childBlocks, Simulated (R scope)
      (runAll (fun inner => DialogueScript.execute fuel scope inner) block)
      (runAll (fun inner => DialogueScript.execute fuel' scope inner) block) :=
    fun block hblock => simulated_runAll fun t ht =>
      ih.execute scope t (sim.inside hs block hblock t ht)
  cases s with
  | assign name value =>
    exact (ih.evaluate scope value).bind fun result =>
      (sim.simulated_assign name result).bind fun _ => simulated_pure _
  | call name args =>
    exact (simulated_valuesOf (ih.evaluate scope) args).bind fun values =>
      (ih.callFunction scope name values).bind fun _ => simulated_pure _
  | declare name params body =>
    have hbody : FunctionDecl.MadeOf Code ⟨name, params, body⟩ :=
      sim.inside hs body (by simp [Stmt.childBlocks])
    exact Simulated.bind (simulated_modify fun _ _ hi => sim.register hi _ hbody) fun _ =>
      simulated_pure _
  | globals names =>
    exact (sim.simulated_declarations (.inl rfl) _ names).bind fun _ => simulated_pure _
  | locals names =>
    exact (sim.simulated_declarations (.inr rfl) _ names).bind fun _ => simulated_pure _
  | branch condition thenBody elseBody =>
    refine (simulated_conditionValue (ih.evaluate scope) condition).bind fun value => ?_
    split
    · exact hblock thenBody (by simp [Stmt.childBlocks])
    · exact hblock elseBody (by simp [Stmt.childBlocks])
  | select selector cases =>
    refine (ih.evaluate scope selector).bind fun selected => ?_
    refine (simulated_selectCase (ih.evaluate scope) selected cases).bind_done
      fun i body j hbody => ?_
    rcases selectCase_done hbody with rfl | ⟨block, hmem, rfl⟩
    · exact simulated_pure _
    · exact hblock block.body (List.mem_map_of_mem hmem)
  | loop condition body =>
    refine (simulated_conditionValue (ih.evaluate scope) condition).bind fun value => ?_
    split
    · refine (hblock body (by simp [Stmt.childBlocks])).bind fun flow => ?_
      cases flow with
      | normal => exact ih.execute scope _ hs
      | returned result => exact simulated_pure _
    · exact simulated_pure _
  | ret value =>
    exact (simulated_operandValue (ih.evaluate scope) value).bind fun _ => simulated_pure _
  | exitCode => exact simulated_exit

end SimulatesWithin

/-- **Simulations are kept by whole runs**, also where the second run has more fuel.

**Proof sketch.** By induction on the fuel of the first run, which ends nowhere without any. Each
construct is a sequence of steps, which the relation survives, and of parts, to which the induction
hypothesis applies. -/
theorem simulatesWithin (sim : Simulation Code R) {fuel fuel' : Nat} (hle : fuel ≤ fuel') :
    SimulatesWithin Code R fuel fuel' := by
  induction fuel generalizing fuel' with
  | zero =>
    exact ⟨fun _ _ => simulated_giveUp _, fun _ _ _ => simulated_giveUp _,
      fun _ _ _ => simulated_giveUp _⟩
  | succ fuel ih =>
    obtain ⟨more, rfl⟩ : ∃ more, fuel' = more + 1 := ⟨fuel' - 1, by omega⟩
    have hpred := ih (Nat.le_of_succ_le_succ hle)
    exact ⟨fun _ => hpred.evaluate_succ sim, fun _ => hpred.callFunction_succ sim,
      fun _ _ => hpred.execute_succ sim⟩

/-- Scripts of the kind of the code. -/
lemma SimulatesWithin.runScript {fuel fuel' : Nat} (h : SimulatesWithin Code R fuel fuel')
    {script : Script} (hscript : ∀ s ∈ script.statements, Code s) :
    Simulated (R Scopes.rootId) (DialogueScript.runScript fuel script)
      (DialogueScript.runScript fuel' script) :=
  Simulated.bind (simulated_runAll fun s hs => h.execute Scopes.rootId s (hscript s hs)) fun _ =>
    simulated_pure _

end Simulation

/-! ## An interpreter and itself -/

section

variable {Code : Stmt → Prop} {scope : ScopeId} {i j : Interpreter σ} {α : Type}

/-- The same interpreter, whose functions are made of statements of the given kind. -/
def SelfMadeOf (Code : Stmt → Prop) (i i' : Interpreter σ) : Prop :=
  i = i' ∧ i.scopes.EveryFunction (FunctionDecl.MadeOf Code)

/-- **Comparing an interpreter with itself**: runs of code of some kind only register functions of
that kind. -/
lemma simulation_self
    (hinside : ∀ {s : Stmt}, Code s → ∀ block ∈ s.childBlocks, ∀ t ∈ block, Code t) :
    Simulation Code fun (_ : ScopeId) (i i' : Interpreter σ) => SelfMadeOf Code i i' where
  inside := hinside
  lookup := by rintro _ _ _ ⟨rfl, -⟩ _; rfl
  global? := by rintro _ _ _ ⟨rfl, -⟩ _; rfl
  function? := by rintro _ _ _ ⟨rfl, -⟩ _; rfl
  code := by rintro _ _ _ ⟨rfl, hi⟩ name decl hdecl; exact hi.of_function? hdecl
  calls := by rintro _ _ _ ⟨rfl, -⟩; exact ⟨rfl, rfl, rfl⟩
  answer := by rintro _ _ _ ⟨rfl, hi⟩; exact ⟨rfl, rfl, hi⟩
  command := by rintro _ _ _ ⟨rfl, hi⟩ command; exact ⟨rfl, hi⟩
  report := by rintro _ _ _ ⟨rfl, hi⟩ error; exact ⟨rfl, hi⟩
  define := by rintro _ id _ _ ⟨rfl, hi⟩ _ name value; exact ⟨rfl, hi.define id name value⟩
  declare := by rintro _ id _ _ ⟨rfl, hi⟩ _ name value; exact ⟨rfl, hi.declare id name value⟩
  register := by
    rintro _ _ _ ⟨rfl, hi⟩ decl hdecl
    exact ⟨rfl, hi.defineFunction Scopes.rootId hdecl⟩
  enter := by
    rintro _ _ _ ⟨rfl, hi⟩ _ params args
    exact ⟨rfl, Interpreter.everyFunction_enter hi params args⟩
  leave := by rintro _ _ _ _ _ _ _ - - ⟨rfl, hj⟩; exact ⟨rfl, hj.pop⟩

omit [Host σ] in
/-- What is registered in a computation that ends is of the kind of its code. -/
lemma everyFunction_of_simulated {p : Eval σ α} {outcome : Outcome α}
    (h : Simulated (SelfMadeOf Code) p p) (hi : i.scopes.EveryFunction (FunctionDecl.MadeOf Code))
    (hp : p i = (outcome, j)) (hends : outcome.Ends) :
    j.scopes.EveryFunction (FunctionDecl.MadeOf Code) := by
  obtain ⟨_, -, -, hj⟩ := h.exists_eq ⟨rfl, hi⟩ hp hends
  exact hj

/-! ## More fuel -/

/-- More fuel does not change how the computation ends. -/
def Eval.Steady (p : Nat → Eval σ α) : Prop :=
  ∀ ⦃fuel fuel' : Nat⦄, fuel ≤ fuel' → Simulated Eq (p fuel) (p fuel')

omit [Host σ] in
/-- A run that ends does so in the same way with more fuel. -/
lemma Eval.Steady.eq_of_le {p : Nat → Eval σ α} {fuel fuel' : Nat} {outcome : Outcome α}
    (h : Steady p) (hle : fuel ≤ fuel') (hp : p fuel i = (outcome, j)) (hends : outcome.Ends) :
    p fuel' i = (outcome, j) := by
  obtain ⟨_, hq, rfl⟩ := (h hle).exists_eq rfl hp hends
  exact hq

omit [Host σ] in
/-- Two runs that end, with any amounts of fuel, end in the same way. -/
lemma Eval.Steady.unique {p : Nat → Eval σ α} {fuel fuel' : Nat} {outcome outcome' : Outcome α}
    {j' : Interpreter σ} (h : Steady p) (hp : p fuel i = (outcome, j)) (hends : outcome.Ends)
    (hp' : p fuel' i = (outcome', j')) (hends' : outcome'.Ends) : outcome' = outcome ∧ j' = j := by
  have hmax := h.eq_of_le (Nat.le_max_left fuel fuel') hp hends
  rw [h.eq_of_le (Nat.le_max_right fuel fuel') hp' hends'] at hmax
  exact Prod.mk.inj hmax

omit [Host σ] in
/-- Where all code is of the kind, nothing is asked of the functions. -/
lemma simulated_eq_of_any {p q : Eval σ α} (h : Simulated (SelfMadeOf fun _ => True) p q) :
    Simulated Eq p q := by
  intro i i' hi hends
  have hany : i.scopes.EveryFunction (FunctionDecl.MadeOf fun _ => True) :=
    ⟨fun _ _ _ _ _ => trivial, fun _ _ _ _ _ _ _ _ => trivial⟩
  obtain ⟨houtcome, hj, -⟩ := h i i' ⟨hi, hany⟩ hends
  exact ⟨houtcome, hj⟩

/-- Whatever is run ends with more fuel as it does with less. -/
lemma simulatesWithin_any {fuel fuel' : Nat} (hle : fuel ≤ fuel') :
    Simulation.SimulatesWithin (fun _ => True)
      (fun (_ : ScopeId) (i i' : Interpreter σ) => SelfMadeOf (fun _ => True) i i') fuel fuel' :=
  (simulation_self fun _ _ _ _ _ => trivial).simulatesWithin hle

/-- More fuel does not change how an expression ends. -/
lemma steady_evaluate (scope : ScopeId) (e : Expr) :
    Steady fun fuel => (evaluate fuel scope e : Eval σ Value) :=
  fun _ _ hle => simulated_eq_of_any ((simulatesWithin_any hle).evaluate scope e)

/-- More fuel does not change how a call ends. -/
lemma steady_callFunction (scope : ScopeId) (name : String) (args : List Value) :
    Steady fun fuel => (callFunction fuel scope name args : Eval σ Value) :=
  fun _ _ hle => simulated_eq_of_any ((simulatesWithin_any hle).callFunction scope name args)

/-- More fuel does not change how a statement ends. -/
lemma steady_execute (scope : ScopeId) (s : Stmt) :
    Steady fun fuel => (execute fuel scope s : Eval σ Flow) :=
  fun _ _ hle => simulated_eq_of_any ((simulatesWithin_any hle).execute scope s trivial)

/-- More fuel does not change how a script ends. -/
lemma steady_runScript (script : Script) :
    Steady fun fuel => (runScript fuel script : Eval σ Unit) :=
  fun _ _ hle => simulated_eq_of_any ((simulatesWithin_any hle).runScript fun _ _ => trivial)

end

end DialogueScript
