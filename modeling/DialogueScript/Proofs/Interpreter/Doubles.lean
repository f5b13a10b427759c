import DialogueScript.Proofs.Interpreter.Moment
import DialogueScript.Proofs.Parser.Words
import DialogueScript.Proofs.Scope.Values

set_option autoImplicit false

/-!
# Scripts make no doubles

The language has doubles, but no source text can make one. A number with a point in it is read as a
name, so the literals of a script that was loaded denote integers or nothing, and no built-in
function turns something else into a double. What the outside world does not bring in is therefore
never there: not in a variable of any frame, not as an argument, and not as the value of anything
that is evaluated.

The invariant has two parts that need each other. No variable holds a double, and the bodies of all
registered functions are made of words that occur in source texts. It is carried through single
computations (`DialogueScript.Eval.Keeps`), by induction on the fuel through everything a run
evaluates, calls or executes, and along the moments inside a request.

## Main definitions

* `DialogueScript.Value.FloatFree` — values that are no doubles.
* `DialogueScript.Interpreter.FloatFree`, `DialogueScript.Job.FloatFree` — the invariant.
* `DialogueScript.Request`, `DialogueScript.Interpreter.Scripted` — sessions in which scripts are
  loaded and functions are called, and the outside world brings in no doubles.
* `DialogueScript.Moment.Gives` — the value of what is evaluated at a moment.

## Main results

* `DialogueScript.keepsWithin` — whatever is evaluated, called or executed keeps the invariant.
* `DialogueScript.Enters.floatFree` — so does the way from a moment to those inside it.
* `DialogueScript.no_float_from_scripts` — there is no double in such a session, ever.
-/

namespace DialogueScript

open Eval

/-! ## The invariant -/

/-- The value is no double. -/
def Value.FloatFree (value : Value) : Prop :=
  ∀ x, value ≠ .float x

/-- A value that a function returns, if it does, is no double. -/
def Flow.FloatFree (flow : Flow) : Prop :=
  ∀ value, flow = .returned value → value.FloatFree

/-- The function is made of words that occur in source texts. -/
def FunctionDecl.Spelled (decl : FunctionDecl) : Prop :=
  ∀ s ∈ decl.body, s.MadeOf TokenKind.Occurs

/-- No variable holds a double, and no registered function can make one. -/
structure Interpreter.FloatFree {σ : Type} (i : Interpreter σ) : Prop where
  /-- No variable of any frame holds a double. -/
  values : i.scopes.EveryValue Value.FloatFree
  /-- The bodies of all functions come from source texts. -/
  bodies : i.scopes.EveryFunction FunctionDecl.Spelled

variable {σ : Type}

namespace Eval

variable {α β : Type} {P : α → Prop} {Q : β → Prop} {p : Eval σ α} {f : α → Eval σ β}

/-- The computation keeps the invariant, however it ends, and its result has the property. -/
def Keeps (P : α → Prop) (p : Eval σ α) : Prop :=
  ∀ i, i.FloatFree → (p i).2.FloatFree ∧ ∀ a, (p i).1 = .done a → P a

/-- The invariant holds behind a computation that keeps it. -/
lemma Keeps.state {i j : Interpreter σ} {outcome : Outcome α} (hp : Keeps P p) (hi : i.FloatFree)
    (h : p i = (outcome, j)) : j.FloatFree := by
  have hrun := (hp i hi).1
  rwa [h] at hrun

/-- The result of a computation has the property that it is known to have. -/
lemma Keeps.result {i j : Interpreter σ} {a : α} (hp : Keeps P p) (hi : i.FloatFree)
    (h : p i = (.done a, j)) : P a :=
  (hp i hi).2 a (by rw [h])

/-- A result that is there at once keeps the invariant. -/
lemma keeps_pure {a : α} (h : P a) : Keeps P (pure a : Eval σ α) := by
  refine fun i hi => ⟨hi, fun b hb => ?_⟩
  obtain rfl := Outcome.done.inj hb
  exact h

/-- To give up keeps the invariant, and there is no result. -/
lemma keeps_giveUp : Keeps P (giveUp : Eval σ α) :=
  fun _ hi => ⟨hi, nofun⟩

/-- To exit keeps the invariant, and there is no result. -/
lemma keeps_exit : Keeps P (exit : Eval σ α) :=
  fun _ hi => ⟨hi, nofun⟩

/-- What is looked up under the invariant has the property. -/
lemma keeps_look {g : Interpreter σ → α} (h : ∀ i, i.FloatFree → P (g i)) : Keeps P (look g) := by
  refine fun i hi => ⟨hi, fun a ha => ?_⟩
  obtain rfl := Outcome.done.inj ha
  exact h i hi

/-- Computations in a row keep the invariant, and the result of the first is handed on with its
property. -/
lemma Keeps.bind (hp : Keeps P p) (hf : ∀ a, P a → Keeps Q (f a)) : Keeps Q (p >>= f) := by
  intro i hi
  rcases hpi : p i with ⟨a | _ | _, j⟩
  · rw [bind_of_done hpi]
    exact hf a (hp.result hi hpi) j (hp.state hi hpi)
  · rw [bind_of_exitRequested hpi]
    exact ⟨hp.state hi hpi, nofun⟩
  · rw [bind_of_outOfFuel hpi]
    exact ⟨hp.state hi hpi, nofun⟩

/-- A change of the scopes keeps the invariant if it brings in no double and no function that could
make one. -/
lemma keeps_modifyScopes {g : Scopes → Scopes}
    (hvalues : ∀ scopes, scopes.EveryValue Value.FloatFree → (g scopes).EveryValue Value.FloatFree)
    (hbodies : ∀ scopes, scopes.EveryFunction FunctionDecl.Spelled →
      (g scopes).EveryFunction FunctionDecl.Spelled) :
    Keeps (fun _ => True) (modifyScopes g : Eval σ Unit) :=
  fun _ hi => ⟨⟨hvalues _ hi.values, hbodies _ hi.bodies⟩, fun _ _ => trivial⟩

/-- A report keeps the invariant. -/
lemma keeps_report (error : RuntimeError) : Keeps (fun _ => True) (report error : Eval σ Unit) :=
  fun _ hi => ⟨⟨hi.values, hi.bodies⟩, fun _ _ => trivial⟩

/-- A report, and then a value that is no double. -/
lemma keeps_report_pure (error : RuntimeError) {value : Value} (h : value.FloatFree) :
    Keeps Value.FloatFree (report error >>= fun _ => pure value : Eval σ Value) :=
  (keeps_report error).bind fun _ _ => keeps_pure h

end Eval

/-! ## Parts without recursion -/

/-- A number without a point in it is no double. -/
lemma floatFree_numberValue? {text : String} {value : Value}
    (hdigits : text.toList.all Char.isDigit = true) (h : numberValue? text = some value) :
    value.FloatFree := by
  have hpoint : text.toList.contains '.' = false := by
    rw [Bool.eq_false_iff]
    intro hmem
    have hdigit := List.all_eq_true.mp hdigits '.' (List.contains_iff_mem.mp hmem)
    revert hdigit
    decide
  rw [numberValue?, hpoint] at h
  obtain ⟨n, -, rfl⟩ := Option.map_eq_some_iff.mp h
  exact nofun

/-- A literal of a source text is no double. -/
lemma keeps_literalValue {kind : LiteralKind} {text : String}
    (htext : kind.tokenKind.Occurs text) :
    Keeps Value.FloatFree (literalValue kind text : Eval σ Value) := by
  cases kind with
  | string => exact keeps_pure (by simp [Value.FloatFree])
  | boolean => exact keeps_pure (by simp [Value.FloatFree])
  | number =>
    simp only [literalValue]
    split
    · next value hvalue => exact keeps_pure (floatFree_numberValue? htext.digits hvalue)
    · exact keeps_report_pure _ (by simp [Value.FloatFree])

/-- The successor of a phase that is no double is none. -/
lemma floatFree_nextPhase? {phase : Option Value} {next : Value}
    (hphase : ∀ value ∈ phase, value.FloatFree) (h : Builtin.nextPhase? phase = .ok next) :
    next.FloatFree := by
  rcases phase with _ | (n | x | text | b | _ | _) <;> simp only [Builtin.nextPhase?] at h
  · obtain rfl := Except.ok.inj h
    exact nofun
  · obtain rfl := Except.ok.inj h
    exact nofun
  · exact absurd rfl (hphase (.float x) rfl x)
  · cases h
  · cases h
  · obtain rfl := Except.ok.inj h
    exact nofun
  · cases h

/-- The phase after one that is no double is none either. -/
lemma keeps_stepPhase : Keeps (fun _ => True) (Builtin.stepPhase : Eval σ Unit) := by
  have hlook : Keeps (fun phase => ∀ value ∈ phase, value.FloatFree)
      (look fun i : Interpreter σ => i.scopes.global? Builtin.phaseName) :=
    keeps_look fun i hi value hvalue => hi.values.global? hvalue
  refine hlook.bind fun phase hphase => ?_
  cases hnext : Builtin.nextPhase? phase with
  | ok next =>
    exact keeps_modifyScopes
      (fun _ h => h.define Scopes.rootId _ (floatFree_nextPhase? hphase hnext))
      fun _ h => h.define Scopes.rootId _ next
  | error actual => exact keeps_report _

section Evaluators

variable {eval : Expr → Eval σ Value} {exec : Stmt → Eval σ Flow}

/-- A missing operand is `nil`, and one that is there is no double if expressions are none. -/
lemma keeps_operandValue {operand : Option Expr}
    (heval : ∀ e ∈ operand, Keeps Value.FloatFree (eval e)) :
    Keeps Value.FloatFree (operandValue eval operand) := by
  cases operand with
  | none => exact keeps_pure nofun
  | some e => exact heval e rfl

/-- A condition is true or false, and its sides are evaluated under the invariant. -/
lemma keeps_conditionValue {guard : Condition}
    (hleft : ∀ e ∈ guard.left, Keeps Value.FloatFree (eval e))
    (hright : ∀ e ∈ guard.right, Keeps Value.FloatFree (eval e)) :
    Keeps Value.FloatFree (conditionValue eval guard) :=
  (keeps_operandValue hleft).bind fun _ _ => (keeps_operandValue hright).bind fun _ _ =>
    keeps_pure nofun

/-- None of the values of some expressions is a double, if the expressions are none. -/
lemma keeps_valuesOf {es : List Expr} (heval : ∀ e ∈ es, Keeps Value.FloatFree (eval e)) :
    Keeps (fun values => ∀ value ∈ values, value.FloatFree) (valuesOf eval es) := by
  induction es with
  | nil => exact keeps_pure (by simp)
  | cons e es ih =>
    have hlater := ih fun e he => heval e (List.mem_cons_of_mem _ he)
    refine (heval e (by simp)).bind fun value hvalue => hlater.bind fun values hvalues => ?_
    exact keeps_pure (List.forall_mem_cons.mpr ⟨hvalue, hvalues⟩)

/-- No double is returned by some statements, if each of them returns none. -/
lemma keeps_runAll {block : List Stmt} (hexec : ∀ s ∈ block, Keeps Flow.FloatFree (exec s)) :
    Keeps Flow.FloatFree (runAll exec block) := by
  induction block with
  | nil => exact keeps_pure nofun
  | cons s block ih =>
    refine (hexec s (by simp)).bind fun flow hflow => ?_
    cases flow with
    | normal => exact ih fun s hs => hexec s (List.mem_cons_of_mem _ hs)
    | returned value => exact keeps_pure hflow

/-- What is selected is one of the bodies, or nothing. -/
lemma keeps_selectCase {selected : Value} {cases : List CaseBlock}
    (heval : ∀ block ∈ cases, Keeps Value.FloatFree (eval block.value))
    (hbodies : ∀ block ∈ cases, ∀ s ∈ block.body, s.MadeOf TokenKind.Occurs) :
    Keeps (fun body => ∀ s ∈ body, s.MadeOf TokenKind.Occurs)
      (selectCase eval selected cases) := by
  induction cases with
  | nil => exact keeps_pure (by simp)
  | cons block later ih =>
    refine (heval block (by simp)).bind fun value _ => ?_
    split
    · exact keeps_pure (hbodies block (by simp))
    · exact ih (fun block hblock => heval block (List.mem_cons_of_mem _ hblock))
        fun block hblock => hbodies block (List.mem_cons_of_mem _ hblock)

end Evaluators

/-- Beginning a call whose arguments are no doubles. -/
lemma Interpreter.FloatFree.enter {i : Interpreter σ} (hi : i.FloatFree) (params : List String)
    {args : List Value} (hargs : ∀ value ∈ args, value.FloatFree) :
    (i.enter params args).FloatFree := by
  have hbind : ∀ (params : List String) (args : List Value) (scopes : Scopes) (id : ScopeId),
      (∀ value ∈ args, value.FloatFree) → scopes.EveryValue Value.FloatFree →
        (bindParameters scopes id params args).EveryValue Value.FloatFree := by
    intro params
    induction params with
    | nil => exact fun _ _ _ _ h => h
    | cons param params ih =>
      intro args scopes id hargs h
      cases args with
      | nil => exact ih [] _ id (by simp) (h.define id param nofun)
      | cons arg args =>
        obtain ⟨harg, hlater⟩ := List.forall_mem_cons.mp hargs
        exact ih args _ id hlater (h.define id param harg)
  exact ⟨hbind params args _ _ hargs (hi.values.push _),
    Interpreter.everyFunction_enter hi.bodies _ _⟩

/-- A call of a declared function without doubles among its arguments has no double for its result,
if the statements of its body return none. -/
lemma keeps_callDeclared {exec : ScopeId → Stmt → Eval σ Flow} {decl : FunctionDecl}
    {args : List Value} (hargs : ∀ value ∈ args, value.FloatFree)
    (hexec : ∀ inner, ∀ s ∈ decl.body, Keeps Flow.FloatFree (exec inner s)) :
    Keeps Value.FloatFree (callDeclared exec decl args) := by
  have hcall : Keeps Flow.FloatFree
      (inCall decl.params args fun scope => runAll (exec scope) decl.body) := by
    intro i hi
    have hbody := keeps_runAll (hexec i.scopes.depth) _ (hi.enter decl.params hargs)
    exact ⟨⟨hbody.1.values.pop, hbody.1.bodies.pop⟩, hbody.2⟩
  refine (keeps_look (P := fun _ => True) fun _ _ => trivial).bind fun _ _ => ?_
  split
  split
  · exact keeps_report_pure _ nofun
  · refine hcall.bind fun flow hflow => ?_
    cases flow with
    | normal => exact keeps_pure nofun
    | returned value => exact keeps_pure (hflow value rfl)

variable [Host σ]

/-- An answer is an integer or `nil`. -/
lemma keeps_askAnswer : Keeps Value.FloatFree (Builtin.askAnswer : Eval σ Value) := by
  have hread : Keeps (fun _ => True) (readAnswer : Eval σ (Option String)) :=
    fun i hi => ⟨⟨hi.values, hi.bodies⟩, fun _ _ => trivial⟩
  refine hread.bind fun answer _ => ?_
  cases answer with
  | none => exact keeps_report_pure _ nofun
  | some line =>
    simp only
    split
    · exact keeps_pure nofun
    · exact keeps_report_pure _ nofun

/-- No built-in function makes a double of what is none. -/
lemma keeps_builtin (builtin : Builtin) (args : List Value) :
    Keeps Value.FloatFree (builtin.run args : Eval σ Value) := by
  have hcommand : ∀ command : Option Command,
      Keeps (fun _ => True) (command.forM Eval.execute : Eval σ Unit) := by
    intro command
    cases command with
    | none => exact keeps_pure trivial
    | some command => exact fun i hi => ⟨⟨hi.values, hi.bodies⟩, fun _ _ => trivial⟩
  cases builtin with
  | puppetEvent => exact keeps_askAnswer
  | advancePhase => exact keeps_stepPhase.bind fun _ _ => keeps_pure nofun
  | _ => exact (hcommand _).bind fun _ _ => keeps_pure nofun

/-! ## Runs -/

/-- With the given fuel, whatever comes from source texts keeps the invariant. -/
structure KeepsWithin (σ : Type) [Host σ] (fuel : Nat) : Prop where
  /-- Expressions. -/
  evaluate : ∀ scope e, e.MadeOf TokenKind.Occurs →
    Keeps Value.FloatFree (evaluate fuel scope e : Eval σ Value)
  /-- Calls by name. -/
  callFunction : ∀ scope name args, (∀ value ∈ args, value.FloatFree) →
    Keeps Value.FloatFree (callFunction fuel scope name args : Eval σ Value)
  /-- Statements. -/
  execute : ∀ scope s, s.MadeOf TokenKind.Occurs →
    Keeps Flow.FloatFree (execute fuel scope s : Eval σ Flow)

namespace KeepsWithin

variable {fuel : Nat} {scope : ScopeId}

/-- An expression is no double, if nothing that is run with less fuel gives one. -/
lemma evaluate_succ (ih : KeepsWithin σ fuel) {e : Expr} (he : e.MadeOf TokenKind.Occurs) :
    Keeps Value.FloatFree (DialogueScript.evaluate (fuel + 1) scope e : Eval σ Value) := by
  cases he with
  | literal htext => exact keeps_literalValue htext
  | @var name _ => exact keeps_look fun i hi => hi.values.lookup nofun scope name
  | call hname hargs =>
    exact (keeps_valuesOf fun arg harg => ih.evaluate scope arg (hargs arg harg)).bind
      fun values hvalues => ih.callFunction scope _ values hvalues

/-- A call has no double for its result, if nothing that is run with less fuel gives one. -/
lemma callFunction_succ (ih : KeepsWithin σ fuel) (name : String) {args : List Value}
    (hargs : ∀ value ∈ args, value.FloatFree) :
    Keeps Value.FloatFree
      (DialogueScript.callFunction (fuel + 1) scope name args : Eval σ Value) := by
  have hlook : Keeps (fun found => ∀ decl ∈ found, decl.Spelled)
      (look fun i : Interpreter σ => i.scopes.function? scope name) :=
    keeps_look fun i hi decl hdecl => hi.bodies.of_function? hdecl
  refine hlook.bind fun found hfound => ?_
  cases found with
  | some decl =>
    have hbody : decl.Spelled := hfound decl rfl
    exact keeps_callDeclared hargs fun inner s hs => ih.execute inner s (hbody s hs)
  | none =>
    simp only
    split
    · exact keeps_builtin _ _
    · exact keeps_report_pure _ nofun

/-- Conditions. -/
lemma condition (h : KeepsWithin σ fuel) {guard : Condition}
    (hguard : guard.MadeOf TokenKind.Occurs) :
    Keeps Value.FloatFree (evaluateCondition fuel scope guard : Eval σ Value) :=
  keeps_conditionValue (fun e he => h.evaluate scope e (hguard.left e he))
    fun e he => h.evaluate scope e (hguard.right e he)

/-- Statements in order. -/
lemma block (h : KeepsWithin σ fuel) {statements : List Stmt}
    (hstatements : ∀ s ∈ statements, s.MadeOf TokenKind.Occurs) :
    Keeps Flow.FloatFree (runStatements fuel scope statements : Eval σ Flow) :=
  keeps_runAll fun s hs => h.execute scope s (hstatements s hs)

omit [Host σ] in
/-- Declarations of variables. -/
lemma declarations (id : ScopeId) (value : Value) (hvalue : value.FloatFree)
    (names : List String) :
    Keeps (fun _ => True) (modifyScopes fun scopes =>
      names.foldl (fun known name => known.modify id fun frame => frame.declare name value) scopes :
      Eval σ Unit) := by
  refine keeps_modifyScopes (fun scopes h => ?_) fun scopes h => ?_
  · exact List.foldlRecOn names _ h fun _ hknown name _ => hknown.declare id name hvalue
  · exact List.foldlRecOn names _ h fun _ hknown name _ => hknown.declare id name value

/-- A statement returns no double, if nothing that is run with less fuel gives one. -/
lemma execute_succ (ih : KeepsWithin σ fuel) {s : Stmt} (hs : s.MadeOf TokenKind.Occurs) :
    Keeps Flow.FloatFree (DialogueScript.execute (fuel + 1) scope s : Eval σ Flow) := by
  have hnormal : Keeps Flow.FloatFree (pure .normal : Eval σ Flow) := keeps_pure nofun
  cases hs with
  | @assign name value _ hvalue =>
    refine (ih.evaluate scope value hvalue).bind fun result hresult => ?_
    exact (keeps_modifyScopes (fun _ h => h.assign scope name hresult)
      fun _ h => h.assign scope name result).bind
      fun _ _ => hnormal
  | @call name args _ hargs =>
    exact (keeps_valuesOf fun arg harg => ih.evaluate scope arg (hargs arg harg)).bind
      fun values hvalues => (ih.callFunction scope name values hvalues).bind fun _ _ => hnormal
  | @declare name params body _ _ hbody =>
    have hdecl : FunctionDecl.Spelled ⟨name, params, body⟩ := hbody
    exact (keeps_modifyScopes (fun _ h => h.defineFunction Scopes.rootId _)
      fun _ h => h.defineFunction Scopes.rootId hdecl).bind fun _ _ => hnormal
  | @globals names _ _ =>
    exact (declarations Scopes.rootId .nil nofun names).bind fun _ _ => hnormal
  | @locals names _ =>
    exact (declarations scope (.integer 0) nofun names).bind fun _ _ => hnormal
  | branch hguard hthen helse =>
    refine (ih.condition hguard).bind fun value _ => ih.block ?_
    split
    · exact hthen
    · exact helse
  | select hselector hvalues hbodies =>
    refine (ih.evaluate scope _ hselector).bind fun selected _ => ?_
    exact (keeps_selectCase (fun block hblock => ih.evaluate scope _ (hvalues block hblock))
      hbodies).bind fun body hbody => ih.block hbody
  | loop hguard hbody =>
    refine (ih.condition hguard).bind fun value _ => ?_
    split
    · refine (ih.block hbody).bind fun flow hflow => ?_
      cases flow with
      | normal => exact ih.execute scope _ (.loop hguard hbody)
      | returned result => exact keeps_pure hflow
    · exact hnormal
  | ret hvalue =>
    refine (keeps_operandValue fun e he => ih.evaluate scope e (hvalue e he)).bind
      fun result hresult => keeps_pure fun value heq => ?_
    obtain rfl := Flow.returned.inj heq
    exact hresult
  | exitCode => exact keeps_exit

end KeepsWithin

/-- **Whatever comes from source texts keeps the invariant**: it makes no double, and it registers
only functions that come from source texts.

**Proof sketch.** By induction on the fuel. Each construct is a sequence of simpler ones, to which
the induction hypothesis applies; the body of a function that is called has been registered. -/
theorem keepsWithin (σ : Type) [Host σ] (fuel : Nat) : KeepsWithin σ fuel := by
  induction fuel with
  | zero =>
    exact ⟨fun _ _ _ => keeps_giveUp, fun _ _ _ _ => keeps_giveUp, fun _ _ _ => keeps_giveUp⟩
  | succ fuel ih =>
    exact ⟨fun _ _ he => ih.evaluate_succ he, fun _ name _ hargs => ih.callFunction_succ name hargs,
      fun _ _ hs => ih.execute_succ hs⟩

/-! ## Moments -/

/-- The code of a job comes from source texts, and its values are no doubles. -/
def Job.FloatFree : Job → Prop
  | .expression e => e.MadeOf TokenKind.Occurs
  | .condition guard => guard.MadeOf TokenKind.Occurs
  | .call _ args => ∀ value ∈ args, value.FloatFree
  | .statement s => s.MadeOf TokenKind.Occurs
  | .block statements => ∀ s ∈ statements, s.MadeOf TokenKind.Occurs
  | .choose selected cases => selected.FloatFree ∧
      (∀ block ∈ cases, block.value.MadeOf TokenKind.Occurs) ∧
      ∀ block ∈ cases, ∀ s ∈ block.body, s.MadeOf TokenKind.Occurs

omit [Host σ] in
/-- The sides of a condition that is made of some words are made of these words. -/
lemma Condition.MadeOf.operand {Word : TokenKind → String → Prop} {guard : Condition}
    (h : guard.MadeOf Word) : ∀ e ∈ guard.operands, e.MadeOf Word := by
  intro e he
  simp only [Condition.operands, List.mem_append, Option.mem_toList] at he
  rcases he with hleft | hright
  · exact h.left e hleft
  · exact h.right e hright

omit [Host σ] in
/-- The operands of a job come from source texts if the job does. -/
lemma Job.FloatFree.operand {job : Job} (h : job.FloatFree) :
    ∀ e ∈ job.operands, e.MadeOf TokenKind.Occurs := by
  cases job with
  | expression e =>
    cases h with
    | literal _ => simp [Job.operands]
    | var _ => simp [Job.operands]
    | call _ hargs => exact hargs
  | condition guard => exact Condition.MadeOf.operand h
  | call name args => simp [Job.operands]
  | statement s =>
    cases h with
    | assign _ hvalue => simpa [Job.operands, Stmt.operands] using hvalue
    | call _ hargs => exact hargs
    | declare _ _ _ => simp [Job.operands, Stmt.operands]
    | globals _ _ => simp [Job.operands, Stmt.operands]
    | locals _ => simp [Job.operands, Stmt.operands]
    | branch hguard _ _ => exact hguard.operand
    | select hselector _ _ => simpa [Job.operands] using hselector
    | loop hguard _ => exact hguard.operand
    | ret hvalue => simpa [Job.operands, Stmt.operands] using hvalue
    | exitCode => simp [Job.operands, Stmt.operands]
  | block statements => simp [Job.operands]
  | choose selected cases => simp [Job.operands]

/-- Operands of a job that comes from source texts have no doubles as values. -/
lemma Job.FloatFree.keeps_valuesOf {job : Job} (h : job.FloatFree) (fuel : Nat) (scope : ScopeId)
    {es : List Expr} (hes : es ⊆ job.operands) :
    Keeps (fun values => ∀ value ∈ values, value.FloatFree)
      (valuesOf (evaluate fuel scope) es : Eval σ (List Value)) :=
  DialogueScript.keeps_valuesOf fun e he =>
    (keepsWithin σ fuel).evaluate scope e (h.operand e (hes he))

/-- The invariant at a moment. -/
def Moment.FloatFree (m : Moment σ) : Prop :=
  m.job.FloatFree ∧ m.state.FloatFree

/-- **The invariant holds inside a moment if it holds at the moment.** -/
lemma Enters.floatFree {m n : Moment σ} (h : Enters m n) (hm : m.FloatFree) : n.FloatFree := by
  obtain ⟨hjob, hi⟩ := hm
  cases h with
  | @operand scope _ _ _ fuel earlier later e _ hoperands hearlier =>
    have hsub : earlier ⊆ _ := hoperands ▸ List.subset_append_left earlier (e :: later)
    exact ⟨hjob.operand e (by simp [hoperands]),
      (hjob.keeps_valuesOf fuel scope hsub).state hi hearlier⟩
  | @callee scope _ _ _ fuel _ _ _ hvalues =>
    have hkeeps := hjob.keeps_valuesOf (σ := σ) fuel scope (List.Subset.refl _)
    exact ⟨hkeeps.result hi hvalues, hkeeps.state hi hvalues⟩
  | body hdecl _ => exact ⟨hi.bodies.of_function? hdecl, hi.enter _ hjob⟩
  | first => exact ⟨hjob _ (by simp), hi⟩
  | later hfirst =>
    obtain ⟨hs, hlater⟩ := List.forall_mem_cons.mp hjob
    exact ⟨hlater, ((keepsWithin σ _).execute _ _ hs).state hi hfirst⟩
  | branch hcondition =>
    cases hjob with
    | branch hguard hthen helse =>
      refine ⟨?_, ((keepsWithin σ _).condition hguard).state hi hcondition⟩
      simp only [Job.FloatFree]
      split
      · exact hthen
      · exact helse
  | @select scope _ _ _ _ fuel _ hselector =>
    cases hjob with
    | select hsel hvalues hbodies =>
      have hkeeps := (keepsWithin σ fuel).evaluate scope _ hsel
      exact ⟨⟨hkeeps.result hi hselector, hvalues, hbodies⟩, hkeeps.state hi hselector⟩
  | caseValue => exact ⟨hjob.2.1 _ (by simp), hi⟩
  | caseBody hvalue _ =>
    exact ⟨hjob.2.2 _ (by simp),
      ((keepsWithin σ _).evaluate _ _ (hjob.2.1 _ (by simp))).state hi hvalue⟩
  | nextCase hvalue _ =>
    obtain ⟨hselected, hvalues, hbodies⟩ := hjob
    refine ⟨⟨hselected, fun block hblock => hvalues block (List.mem_cons_of_mem _ hblock),
      fun block hblock => hbodies block (List.mem_cons_of_mem _ hblock)⟩, ?_⟩
    exact ((keepsWithin σ _).evaluate _ _ (hvalues _ (by simp))).state hi hvalue
  | round hcondition _ =>
    cases hjob with
    | loop hguard hbody =>
      exact ⟨hbody, ((keepsWithin σ _).condition hguard).state hi hcondition⟩
  | again hcondition _ hround =>
    cases hjob with
    | loop hguard hbody =>
      have hbefore := ((keepsWithin σ _).condition hguard).state hi hcondition
      exact ⟨.loop hguard hbody, ((keepsWithin σ _).block hbody).state hbefore hround⟩

/-- The invariant holds at every moment inside a moment at which it holds. -/
lemma Visits.floatFree {m n : Moment σ} (h : Visits m n) (hm : m.FloatFree) : n.FloatFree := by
  induction h with
  | refl => exact hm
  | tail _ hstep ih => exact hstep.floatFree ih

/-- What is evaluated at a moment has the value: an expression, a condition, a call, or the
statements of a function that return it. -/
inductive Moment.Gives : Moment σ → Value → Prop
  /-- The value of an expression. -/
  | expression {scope : ScopeId} {e : Expr} {i j : Interpreter σ} {fuel : Nat} {value : Value}
      (h : evaluate fuel scope e i = (.done value, j)) : Gives ⟨scope, .expression e, i⟩ value
  /-- The value of a condition. -/
  | condition {scope : ScopeId} {guard : Condition} {i j : Interpreter σ} {fuel : Nat}
      {value : Value} (h : evaluateCondition fuel scope guard i = (.done value, j)) :
      Gives ⟨scope, .condition guard, i⟩ value
  /-- The result of a call. -/
  | call {scope : ScopeId} {name : String} {args : List Value} {i j : Interpreter σ} {fuel : Nat}
      {value : Value} (h : callFunction fuel scope name args i = (.done value, j)) :
      Gives ⟨scope, .call name args, i⟩ value
  /-- The value that a statement returns. -/
  | statement {scope : ScopeId} {s : Stmt} {i j : Interpreter σ} {fuel : Nat} {value : Value}
      (h : execute fuel scope s i = (.done (.returned value), j)) :
      Gives ⟨scope, .statement s, i⟩ value
  /-- The value that some statements return. -/
  | block {scope : ScopeId} {statements : List Stmt} {i j : Interpreter σ} {fuel : Nat}
      {value : Value} (h : runStatements fuel scope statements i = (.done (.returned value), j)) :
      Gives ⟨scope, .block statements, i⟩ value

/-- What is evaluated under the invariant is no double. -/
lemma Moment.FloatFree.gives {m : Moment σ} {value : Value} (hm : m.FloatFree)
    (h : m.Gives value) : value.FloatFree := by
  obtain ⟨hjob, hi⟩ := hm
  cases h with
  | expression h => exact ((keepsWithin σ _).evaluate _ _ hjob).result hi h
  | condition h => exact ((keepsWithin σ _).condition hjob).result hi h
  | call h => exact ((keepsWithin σ _).callFunction _ _ _ hjob).result hi h
  | statement h => exact ((keepsWithin σ _).execute _ _ hjob).result hi h value rfl
  | block h => exact ((keepsWithin σ _).block hjob).result hi h value rfl

/-- The invariant holds when a job is over, or its fuel is used up, if it held before. -/
lemma Moment.FloatFree.run {m : Moment σ} (hm : m.FloatFree) (fuel : Nat) :
    (m.job.run fuel m.scope m.state).2.FloatFree := by
  obtain ⟨scope, job, i⟩ := m
  obtain ⟨hjob, hi⟩ := hm
  have hkeeps : Keeps (fun _ => True) (job.run fuel scope : Eval σ Unit) := by
    cases job with
    | expression e =>
      exact ((keepsWithin σ fuel).evaluate scope e hjob).bind fun _ _ => keeps_pure trivial
    | condition guard =>
      exact ((keepsWithin σ fuel).condition hjob).bind fun _ _ => keeps_pure trivial
    | call name args =>
      exact ((keepsWithin σ fuel).callFunction scope name args hjob).bind fun _ _ =>
        keeps_pure trivial
    | statement s =>
      exact ((keepsWithin σ fuel).execute scope s hjob).bind fun _ _ => keeps_pure trivial
    | block statements =>
      exact ((keepsWithin σ fuel).block hjob).bind fun _ _ => keeps_pure trivial
    | choose selected cases =>
      obtain ⟨-, hvalues, hbodies⟩ := hjob
      refine Keeps.bind (keeps_selectCase (fun block hblock => ?_) hbodies) fun body hbody =>
        ((keepsWithin σ fuel).block hbody).bind fun _ _ => keeps_pure trivial
      exact (keepsWithin σ fuel).evaluate scope block.value (hvalues block hblock)
  exact (hkeeps i hi).1

/-! ## Sessions -/

/-- What the outside world can ask for: that a source text is loaded and run, or that a function is
called. -/
inductive Request
  /-- Load a source text and run it. -/
  | script (id source : String)
  /-- Call a function. -/
  | call (name : String) (args : List Value)

/-- What a request comes down to. -/
def Request.job : Request → Job
  | script id source => .block (Script.load id source).statements
  | call name args => .call name args

/-- The request brings in no double. -/
def Request.FloatFree : Request → Prop
  | script _ _ => True
  | call _ args => ∀ value ∈ args, value.FloatFree

/-- The interpreter between two requests of a session in which no double is brought in. -/
inductive Interpreter.Scripted : Interpreter σ → Prop
  /-- A fresh interpreter with some variables that are no doubles. -/
  | fresh (host : σ) (limit : Nat) {globals : List (String × Value)}
      (hglobals : ∀ binding ∈ globals, binding.2.FloatFree) : Scripted (.fresh host limit globals)
  /-- Its reports are taken away. -/
  | clearErrors {i : Interpreter σ} (hi : Scripted i) : Scripted i.clearErrors
  /-- Something happens to its host. -/
  | withHost {i : Interpreter σ} (hi : Scripted i) (host : σ) : Scripted { i with host := host }
  /-- It serves a request, to its end or not. -/
  | served {i j : Interpreter σ} {request : Request} {fuel : Nat} {outcome : Outcome Unit}
      (hi : Scripted i) (hrequest : request.FloatFree)
      (hrun : request.job.run fuel Scopes.rootId i = (outcome, j)) : Scripted j

omit [Host σ] in
/-- Requests begin with the invariant: sources are made of words that occur in sources. -/
lemma Request.FloatFree.job {request : Request} (h : request.FloatFree) :
    request.job.FloatFree := by
  cases request with
  | script id source => exact Script.madeOf_load id source
  | call name args => exact h

omit [Host σ] in
/-- A fresh interpreter holds no double, if none is brought in with its variables. -/
lemma Interpreter.floatFree_fresh (host : σ) (limit : Nat) {globals : List (String × Value)}
    (hglobals : ∀ binding ∈ globals, binding.2.FloatFree) :
    (Interpreter.fresh host limit globals).FloatFree := by
  have hset : ∀ (bindings : List (String × Value)) (scopes : Scopes),
      (∀ binding ∈ bindings, binding.2.FloatFree) → scopes.EveryValue Value.FloatFree →
        (scopes.setGlobals bindings).EveryValue Value.FloatFree := by
    intro bindings
    induction bindings with
    | nil => exact fun _ _ h => h
    | cons binding bindings ih =>
      intro scopes hbindings h
      obtain ⟨hfirst, hlater⟩ := List.forall_mem_cons.mp hbindings
      exact ih _ hlater (h.define Scopes.rootId binding.1 hfirst)
  exact ⟨hset globals _ hglobals .empty, Interpreter.everyFunction_fresh host limit globals⟩

/-- Between requests the invariant holds. -/
lemma Interpreter.Scripted.floatFree {i : Interpreter σ} (h : i.Scripted) : i.FloatFree := by
  induction h with
  | fresh host limit hglobals => exact floatFree_fresh host limit hglobals
  | clearErrors _ ih => exact ⟨ih.values, ih.bodies⟩
  | withHost _ _ ih => exact ⟨ih.values, ih.bodies⟩
  | @served i j request fuel outcome _ hrequest hrun ih =>
    have hend := Moment.FloatFree.run (m := ⟨Scopes.rootId, request.job, i⟩)
      ⟨hrequest.job, ih⟩ fuel
    rwa [hrun] at hend

/-- **Scripts make no doubles.** Sources are loaded and run and functions are called, in any order,
on one interpreter that was fresh, and neither its first variables nor the arguments of calls from
outside are doubles. Then at every moment inside every request no variable of any frame holds a
double, nor when the job of the moment is over or given up; no function gets one as an argument, and
nothing that is evaluated has one as its value.

**Proof sketch.** What was loaded is made of words that occur in source texts
(`Script.madeOf_load`), and the numbers among these consist of digits (`TokenKind.Occurs.digits`).
So the invariant holds between requests (`Interpreter.Scripted.floatFree`) and at the beginning of
each, and goes on from moment to moment (`Enters.floatFree`). -/
theorem no_float_from_scripts {i : Interpreter σ} {request : Request} {m : Moment σ}
    (hi : i.Scripted) (hrequest : request.FloatFree)
    (hvisits : Visits ⟨Scopes.rootId, request.job, i⟩ m) :
    m.state.scopes.EveryValue Value.FloatFree ∧
      (∀ fuel, (m.job.run fuel m.scope m.state).2.scopes.EveryValue Value.FloatFree) ∧
      (∀ name args, m.job = .call name args → ∀ value ∈ args, value.FloatFree) ∧
      ∀ value, m.Gives value → value.FloatFree := by
  have hm : m.FloatFree := hvisits.floatFree ⟨hrequest.job, hi.floatFree⟩
  refine ⟨hm.2.values, fun fuel => (hm.run fuel).values, fun name args hcall => ?_,
    fun value hvalue => hm.gives hvalue⟩
  have hargs := hm.1
  rwa [hcall] at hargs

/-- A session that tries hard: the phase begins as an integer, and a function is called with what
looks like a number with a point but is the name of no variable. -/
theorem no_float_from_scripts_point :
    let first := Request.script "first" "code same(x)\nreturn x\nendcode\nphase = 7"
    let advance := Request.call "advancephase" []
    let second := Request.script "second" "y = same(1.5)"
    let fresh : Interpreter BufferHost := .fresh (.withAnswers []) 3 [("phase", .nil)]
    let declared := (first.job.run 4 Scopes.rootId fresh).2
    let advanced := (advance.job.run 1 Scopes.rootId declared).2
    let m : Moment BufferHost := ⟨Scopes.rootId, .call "same" [.nil], advanced⟩
    advanced.Scripted ∧ Visits ⟨Scopes.rootId, second.job, advanced⟩ m ∧
      m.state.scopes.global? "phase" = some (.integer 8) ∧
      m.state.scopes.EveryValue Value.FloatFree ∧
      (∀ fuel, (m.job.run fuel m.scope m.state).2.scopes.EveryValue Value.FloatFree) ∧
      (∀ name args, m.job = .call name args → ∀ value ∈ args, value.FloatFree) ∧
      ∀ value, m.Gives value → value.FloatFree := by
  intro first advance second fresh declared advanced m
  have hnil : Value.nil.FloatFree := nofun
  have hfresh : fresh.Scripted := .fresh _ _ (List.forall_mem_singleton.mpr hnil)
  have hfirst : first.FloatFree := trivial
  have hrun : first.job.run 4 Scopes.rootId fresh = (.done (), declared) := rfl
  have hdeclared : declared.Scripted := .served hfresh hfirst hrun
  have hadvance : advance.FloatFree := List.forall_mem_nil _
  have hstep : advance.job.run 1 Scopes.rootId declared = (.done (), advanced) := rfl
  have hadvanced : advanced.Scripted := .served hdeclared hadvance hstep
  have hsecond : second.FloatFree := trivial
  have hvisits : Visits ⟨Scopes.rootId, second.job, advanced⟩ m := by
    have hjob : second.job = .block [.assign "y" (.call "same" [.var "1.5"])] := rfl
    have hnone : valuesOf (evaluate 1 Scopes.rootId) [] advanced = (.done [], advanced) := rfl
    have hpoint : valuesOf (evaluate 1 Scopes.rootId) [.var "1.5"] advanced =
        (.done [.nil], advanced) := rfl
    rw [hjob]
    exact .tail (.tail (.tail .refl .first) (.operand rfl hnone)) (.callee rfl hpoint)
  exact ⟨hadvanced, hvisits, rfl, no_float_from_scripts hadvanced hsecond hvisits⟩

end DialogueScript
