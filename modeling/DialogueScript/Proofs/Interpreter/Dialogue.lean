import DialogueScript.Proofs.Interpreter.Hosts

set_option autoImplicit false

/-!
# Runs are dialogues

All that a run has to do with its host is to show commands and to ask for answers. Between that it
does not look at the host, and no two hosts are treated differently. So whatever is run is a
*dialogue* that does not depend on the host: a tree which says what is shown, what is asked, and how
it goes on after each answer. Over a host one way through the tree is taken.

Two runs over different hosts take the same way as long as they hear the same. What is true of them
for that reason is proved by induction on the dialogue, and no construct of the language has to be
looked at again. Here it is said of hosts that go together for a while and then part for good.

## Main definitions

* `DialogueScript.Dialogue`, `DialogueScript.Dialogue.hold` — dialogues, and a dialogue with a host.
* `DialogueScript.Eval.Spoken` — a computation is a dialogue, the same one over all hosts.
* `DialogueScript.Host.Parting` — hosts that go together until they part.

## Main results

* `DialogueScript.spokenWithin`, `DialogueScript.spoken_runScript` — whatever is run is a dialogue.
* `DialogueScript.Eval.Spoken.parting` — runs over two hosts go together until the hosts part.
-/

namespace DialogueScript

variable {σ τ α β : Type}

/-! ## Dialogues -/

/-- What is said to a host and how it goes on, until there is a result. -/
inductive Dialogue (α : Type) : Type
  /-- There is a result. -/
  | done (result : α) : Dialogue α
  /-- A command is shown. -/
  | tell (command : Command) (later : Dialogue α) : Dialogue α
  /-- An answer is asked for, and what comes then depends on it. -/
  | ask (later : Option String → Dialogue α) : Dialogue α

namespace Dialogue

/-- A dialogue, and another one that depends on its result. -/
def andThen : Dialogue α → (α → Dialogue β) → Dialogue β
  | done result, f => f result
  | tell command later, f => tell command (later.andThen f)
  | ask later, f => ask fun answer => (later answer).andThen f

/-- Hold the dialogue with a host: the result, and the host behind it. -/
def hold [Host σ] : Dialogue α → σ → α × σ
  | done result, host => (result, host)
  | tell command later, host => later.hold (Host.execute command host)
  | ask later, host => (later (Host.readAnswer host).1).hold (Host.readAnswer host).2

/-- To hold two dialogues in a row is to hold the second one with the host that the first has left.
-/
lemma hold_andThen [Host σ] (d : Dialogue α) (f : α → Dialogue β) (host : σ) :
    (d.andThen f).hold host = (f (d.hold host).1).hold (d.hold host).2 := by
  induction d generalizing host with
  | done result => rfl
  | tell command later ih => exact ih _
  | ask later ih => exact ih _ _

end Dialogue

/-! ## Computations -/

/-- The interpreter without its host. -/
def Interpreter.bare (i : Interpreter σ) : Interpreter Unit :=
  { i with host := () }

/-- The interpreter over a host. -/
def Interpreter.over (i : Interpreter Unit) (host : σ) : Interpreter σ :=
  { i with host := host }

namespace Eval

/-- What a computation that is a dialogue leaves: how it ends, and the interpreter over the host
behind the dialogue. -/
def spokenResult [Host σ] (d : Dialogue (Outcome α × Interpreter Unit)) (host : σ) :
    Outcome α × Interpreter σ :=
  ((d.hold host).1.1, (d.hold host).1.2.over (d.hold host).2)

/-- The computation is a dialogue. It depends on the interpreter, but not on the host. -/
def Spoken (p : (σ : Type) → Host σ → Eval σ α) : Prop :=
  ∃ d : Interpreter Unit → Dialogue (Outcome α × Interpreter Unit),
    ∀ (σ : Type) (host : Host σ) (i : Interpreter σ), p σ host i = spokenResult (d i.bare) i.host

variable {p : (σ : Type) → Host σ → Eval σ α} {f : α → (σ : Type) → Host σ → Eval σ β}

/-- A computation that leaves the host alone is a dialogue in which nothing is said. -/
lemma spoken_silent (g : Interpreter Unit → Outcome α × Interpreter Unit)
    (h : ∀ (σ : Type) (host : Host σ) (i : Interpreter σ),
      p σ host i = ((g i.bare).1, (g i.bare).2.over i.host)) : Spoken p :=
  ⟨fun i => .done (g i), h⟩

/-- A result that is there at once is a dialogue in which nothing is said. -/
lemma spoken_pure (a : α) : Spoken fun σ _ => (pure a : Eval σ α) :=
  spoken_silent (fun i => (.done a, i)) fun _ _ _ => rfl

/-- To give up for lack of fuel, nothing is said. -/
lemma spoken_giveUp : Spoken fun σ _ => (giveUp : Eval σ α) :=
  spoken_silent (fun i => (.outOfFuel, i)) fun _ _ _ => rfl

/-- To exit, nothing is said. -/
lemma spoken_exit : Spoken fun σ _ => (exit : Eval σ α) :=
  spoken_silent (fun i => (.exitRequested, i)) fun _ _ _ => rfl

/-- A question about the interpreter that is not about its host is not put to the host. -/
lemma spoken_look (g : Interpreter Unit → α) :
    Spoken fun σ _ => (look fun i => g i.bare : Eval σ α) :=
  spoken_silent (fun i => (.done (g i), i)) fun _ _ _ => rfl

/-- A change of the scopes is a dialogue in which nothing is said. -/
lemma spoken_modifyScopes (g : Scopes → Scopes) :
    Spoken fun σ _ => (modifyScopes g : Eval σ Unit) :=
  spoken_silent (fun i => (.done (), { i with scopes := g i.scopes })) fun _ _ _ => rfl

/-- A report stays with the interpreter, and the host does not hear of it. -/
lemma spoken_report (error : RuntimeError) : Spoken fun σ _ => (report error : Eval σ Unit) :=
  spoken_silent (fun i => (.done (), { i with errors := i.errors ++ [error] })) fun _ _ _ => rfl

/-- Showing a command is a dialogue of one line. -/
lemma spoken_execute (command : Command) :
    Spoken fun σ _ => (Eval.execute command : Eval σ Unit) :=
  ⟨fun i => .tell command (.done (.done (), i)), fun _ _ _ => rfl⟩

/-- Asking for an answer is a dialogue of one question. -/
lemma spoken_readAnswer : Spoken fun σ _ => (readAnswer : Eval σ (Option String)) :=
  ⟨fun i => .ask fun answer => .done (.done answer, i), fun _ _ _ => rfl⟩

/-- How a dialogue goes on after another one: with the result, if there is one. -/
def goOn (g : α → Interpreter Unit → Dialogue (Outcome β × Interpreter Unit)) :
    Outcome α × Interpreter Unit → Dialogue (Outcome β × Interpreter Unit)
  | (.done a, i) => g a i
  | (.exitRequested, i) => .done (.exitRequested, i)
  | (.outOfFuel, i) => .done (.outOfFuel, i)

/-- **Dialogues one after the other** are a dialogue. -/
lemma Spoken.bind (hp : Spoken p) (hf : ∀ a, Spoken (f a)) :
    Spoken fun σ host => p σ host >>= fun a => f a σ host := by
  obtain ⟨d, hd⟩ := hp
  choose g hg using hf
  refine ⟨fun i => (d i).andThen (goOn g), fun σ host i => ?_⟩
  have hfirst := hd σ host i
  rw [spokenResult] at hfirst
  rw [spokenResult, Dialogue.hold_andThen]
  change (p σ host >>= fun a => f a σ host) i = _
  rcases hheld : (d i.bare).hold i.host with ⟨⟨a | _ | _, j⟩, behind⟩
  · rw [hheld] at hfirst
    rw [bind_of_done hfirst, hg]
    rfl
  · rw [hheld] at hfirst
    rw [bind_of_exitRequested hfirst]
    rfl
  · rw [hheld] at hfirst
    rw [bind_of_outOfFuel hfirst]
    rfl

/-- A dialogue in a frame of its own. -/
lemma spoken_inCall {body : ScopeId → (σ : Type) → Host σ → Eval σ α} (params : List String)
    (args : List Value) (hbody : ∀ scope, Spoken (body scope)) :
    Spoken fun σ host => inCall params args fun scope => body scope σ host := by
  choose g hg using hbody
  refine ⟨fun i => (g i.scopes.depth (i.enter params args)).andThen fun result =>
    .done (result.1, result.2.leave), fun σ host i => ?_⟩
  have hinside := hg i.scopes.depth σ host (i.enter params args)
  rw [spokenResult, Dialogue.hold_andThen]
  show ((body i.scopes.depth σ host (i.enter params args)).1,
    (body i.scopes.depth σ host (i.enter params args)).2.leave) = _
  rw [hinside]
  rfl

end Eval

open Eval

/-! ## Whatever is run -/

section Evaluators

variable {eval : Expr → (σ : Type) → Host σ → Eval σ Value}
  {exec : Stmt → (σ : Type) → Host σ → Eval σ Flow}

/-- The value of an operand is found in a dialogue, if those of expressions are. -/
lemma spoken_operandValue (heval : ∀ e, Spoken (eval e)) (operand : Option Expr) :
    Spoken fun σ host => operandValue (fun e => eval e σ host) operand := by
  cases operand with
  | none => exact spoken_pure _
  | some e => exact heval e

/-- A comparison is a dialogue about its left side and then one about its right side. -/
lemma spoken_comparisonValue (heval : ∀ e, Spoken (eval e)) (left : Option Expr) (op : BinaryOp)
    (right : Option Expr) :
    Spoken fun σ host => comparisonValue (fun e => eval e σ host) left op right :=
  (spoken_operandValue heval left).bind fun _ =>
    (spoken_operandValue heval right).bind fun _ => spoken_pure _

/-- The value of a condition is found in a dialogue, if those of expressions are. -/
lemma spoken_conditionValue (heval : ∀ e, Spoken (eval e)) (condition : Condition) :
    Spoken fun σ host => conditionValue (fun e => eval e σ host) condition :=
  spoken_comparisonValue heval _ _ _

/-- The values of some expressions are found in one dialogue after the other. -/
lemma spoken_valuesOf (heval : ∀ e, Spoken (eval e)) (es : List Expr) :
    Spoken fun σ host => valuesOf (fun e => eval e σ host) es := by
  induction es with
  | nil => exact spoken_pure _
  | cons e es ih => exact (heval e).bind fun _ => ih.bind fun _ => spoken_pure _

/-- Cases are tried in one dialogue after the other, until one is found. -/
lemma spoken_selectCase (heval : ∀ e, Spoken (eval e)) (selected : Value)
    (cases : List CaseBlock) :
    Spoken fun σ host => selectCase (fun e => eval e σ host) selected cases := by
  induction cases with
  | nil => exact spoken_pure _
  | cons block later ih =>
    refine (heval block.value).bind fun value => ?_
    by_cases hfound : selected.scriptEq value = true
    · simp only [hfound, if_true]
      exact spoken_pure _
    · simp only [hfound]
      exact ih

/-- Statements are dialogues one after the other, until one returns. -/
lemma spoken_runAll (hexec : ∀ s, Spoken (exec s)) (block : List Stmt) :
    Spoken fun σ host => runAll (fun s => exec s σ host) block := by
  induction block with
  | nil => exact spoken_pure _
  | cons s block ih =>
    refine (hexec s).bind fun flow => ?_
    cases flow with
    | normal => exact ih
    | returned value => exact spoken_pure _

end Evaluators

/-- The value of a literal is found without a word to the host. -/
lemma spoken_literalValue (kind : LiteralKind) (text : String) :
    Spoken fun σ _ => (literalValue kind text : Eval σ Value) := by
  cases kind with
  | string => exact spoken_pure _
  | boolean => exact spoken_pure _
  | number =>
    cases hvalue : numberValue? text with
    | some value =>
      simp only [literalValue, hvalue]
      exact spoken_pure _
    | none =>
      simp only [literalValue, hvalue]
      exact (spoken_report _).bind fun _ => spoken_pure _

/-- What a script does with an answer does not concern the host any more. -/
lemma spoken_askAnswer : Spoken fun σ _ => (Builtin.askAnswer : Eval σ Value) := by
  refine spoken_readAnswer.bind fun answer => ?_
  cases answer with
  | none => exact (spoken_report _).bind fun _ => spoken_pure _
  | some line =>
    cases hnumber : Text.readInt64? (Text.trim line.toList) with
    | some n =>
      simp only [hnumber]
      exact spoken_pure _
    | none =>
      simp only [hnumber]
      exact (spoken_report _).bind fun _ => spoken_pure _

/-- Advancing the phase does not concern the host. -/
lemma spoken_stepPhase : Spoken fun σ _ => (Builtin.stepPhase : Eval σ Unit) := by
  refine (spoken_look fun i => i.scopes.global? Builtin.phaseName).bind fun phase => ?_
  cases Builtin.nextPhase? phase with
  | ok next => exact spoken_modifyScopes _
  | error actual => exact spoken_report _

/-- A call of a built-in function is a dialogue of at most one line or question. -/
lemma spoken_builtin (builtin : Builtin) (args : List Value) :
    Spoken fun σ _ => (builtin.run args : Eval σ Value) := by
  have hcommand : ∀ command : Option Command,
      Spoken fun σ _ => (command.forM Eval.execute : Eval σ Unit) := by
    intro command
    cases command with
    | none => exact spoken_pure _
    | some command => exact spoken_execute command
  cases builtin with
  | puppetEvent => exact spoken_askAnswer
  | advancePhase => exact spoken_stepPhase.bind fun _ => spoken_pure _
  | _ => exact (hcommand _).bind fun _ => spoken_pure _

/-- A call of a declared function is a dialogue, if statements are. -/
lemma spoken_callDeclared {exec : ScopeId → Stmt → (σ : Type) → Host σ → Eval σ Flow}
    (hexec : ∀ scope s, Spoken (exec scope s)) (decl : FunctionDecl) (args : List Value) :
    Spoken fun σ host => callDeclared (fun scope s => exec scope s σ host) decl args := by
  refine (spoken_look fun i => (i.callDepth, i.limit)).bind fun (callDepth, limit) => ?_
  by_cases hdepth : limit ≤ callDepth
  · simp only [hdepth, if_true]
    exact (spoken_report _).bind fun _ => spoken_pure _
  · simp only [hdepth, if_false]
    refine (spoken_inCall decl.params args fun scope => spoken_runAll (hexec scope) decl.body).bind
      fun flow => ?_
    cases flow with
    | normal => exact spoken_pure _
    | returned value => exact spoken_pure _

/-- With this amount of fuel, whatever is run is a dialogue. -/
structure SpokenWithin (fuel : Nat) : Prop where
  /-- Expressions. -/
  evaluate : ∀ scope e, Spoken fun σ _ => (evaluate fuel scope e : Eval σ Value)
  /-- Calls by name. -/
  callFunction : ∀ scope name args,
    Spoken fun σ _ => (callFunction fuel scope name args : Eval σ Value)
  /-- Statements. -/
  execute : ∀ scope s, Spoken fun σ _ => (execute fuel scope s : Eval σ Flow)

namespace SpokenWithin

variable {fuel : Nat}

/-- An expression is a dialogue, if all is that is run with less fuel. -/
lemma evaluate_succ (ih : SpokenWithin fuel) (scope : ScopeId) (e : Expr) :
    Spoken fun σ _ => (DialogueScript.evaluate (fuel + 1) scope e : Eval σ Value) := by
  cases e with
  | literal kind text => exact spoken_literalValue kind text
  | var name => exact spoken_look fun i => i.scopes.lookup scope name
  | call name args =>
    exact (spoken_valuesOf (ih.evaluate scope) args).bind fun values =>
      ih.callFunction scope name values
  | binary left op right => exact spoken_comparisonValue (ih.evaluate scope) left op right

/-- A call by name is a dialogue, if all is that is run with less fuel. -/
lemma callFunction_succ (ih : SpokenWithin fuel) (scope : ScopeId) (name : String)
    (args : List Value) :
    Spoken fun σ _ => (DialogueScript.callFunction (fuel + 1) scope name args : Eval σ Value) := by
  refine (spoken_look fun i => i.scopes.function? scope name).bind fun found => ?_
  cases found with
  | some decl => exact spoken_callDeclared ih.execute decl args
  | none =>
    cases Builtin.ofName? name with
    | some builtin => exact spoken_builtin builtin args
    | none => exact (spoken_report _).bind fun _ => spoken_pure _

/-- A statement is a dialogue, if all is that is run with less fuel. -/
lemma execute_succ (ih : SpokenWithin fuel) (scope : ScopeId) (s : Stmt) :
    Spoken fun σ _ => (DialogueScript.execute (fuel + 1) scope s : Eval σ Flow) := by
  have hblock := spoken_runAll (ih.execute scope)
  cases s with
  | assign name value =>
    exact (ih.evaluate scope value).bind fun _ =>
      (spoken_modifyScopes _).bind fun _ => spoken_pure _
  | call name args =>
    exact (spoken_valuesOf (ih.evaluate scope) args).bind fun values =>
      (ih.callFunction scope name values).bind fun _ => spoken_pure _
  | declare name params body => exact (spoken_modifyScopes _).bind fun _ => spoken_pure _
  | globals names => exact (spoken_modifyScopes _).bind fun _ => spoken_pure _
  | locals names => exact (spoken_modifyScopes _).bind fun _ => spoken_pure _
  | branch condition thenBody elseBody =>
    exact (spoken_conditionValue (ih.evaluate scope) condition).bind fun _ => hblock _
  | select selector cases =>
    exact (ih.evaluate scope selector).bind fun selected =>
      (spoken_selectCase (ih.evaluate scope) selected cases).bind fun body => hblock body
  | loop condition body =>
    refine (spoken_conditionValue (ih.evaluate scope) condition).bind fun value => ?_
    by_cases htruthy : value.isTruthy = true
    · simp only [htruthy, if_true]
      refine (hblock body).bind fun flow => ?_
      cases flow with
      | normal => exact ih.execute scope (.loop condition body)
      | returned result => exact spoken_pure _
    · simp only [htruthy]
      exact spoken_pure _
  | ret value =>
    exact (spoken_operandValue (ih.evaluate scope) value).bind fun _ => spoken_pure _
  | exitCode => exact spoken_exit

end SpokenWithin

/-- **Whatever is run is a dialogue**, the same one over all hosts. -/
lemma spokenWithin (fuel : Nat) : SpokenWithin fuel := by
  induction fuel with
  | zero =>
    exact ⟨fun _ _ => spoken_giveUp, fun _ _ _ => spoken_giveUp, fun _ _ => spoken_giveUp⟩
  | succ fuel ih => exact ⟨ih.evaluate_succ, ih.callFunction_succ, ih.execute_succ⟩

/-- A script is a dialogue, the same one over all hosts. -/
lemma spoken_runScript (fuel : Nat) (script : Script) :
    Spoken fun σ _ => (runScript fuel script : Eval σ Unit) :=
  (spoken_runAll ((spokenWithin fuel).execute Scopes.rootId) script.statements).bind fun _ =>
    spoken_pure _

/-! ## Hosts that part -/

/-- Hosts that go together until they part. While they go together they give the same answers; once
they have parted they stay so, whatever is done with either of them. -/
structure Host.Parting [Host σ] [Host τ] (H P : σ → τ → Prop) : Prop where
  /-- Both are shown a command. -/
  execute : ∀ {a : σ} {b : τ}, H a b → ∀ command,
    H (Host.execute command a) (Host.execute command b) ∨
      P (Host.execute command a) (Host.execute command b)
  /-- Both are asked for an answer. -/
  answer : ∀ {a : σ} {b : τ}, H a b →
    (Host.readAnswer b).1 = (Host.readAnswer a).1 ∧
        H (Host.readAnswer a).2 (Host.readAnswer b).2 ∨
      P (Host.readAnswer a).2 (Host.readAnswer b).2
  /-- The first one is shown a command. -/
  executeLeft : ∀ {a : σ} {b : τ}, P a b → ∀ command, P (Host.execute command a) b
  /-- The first one is asked for an answer. -/
  answerLeft : ∀ {a : σ} {b : τ}, P a b → P (Host.readAnswer a).2 b
  /-- The second one is shown a command. -/
  executeRight : ∀ {a : σ} {b : τ}, P a b → ∀ command, P a (Host.execute command b)
  /-- The second one is asked for an answer. -/
  answerRight : ∀ {a : σ} {b : τ}, P a b → P a (Host.readAnswer b).2

section Parting

variable [Host σ] [Host τ] {H P : σ → τ → Prop}

namespace Dialogue

/-- Hosts that have parted stay so when a dialogue is held with the first of them. -/
lemma hold_left (h : Host.Parting H P) (d : Dialogue α) {a : σ} {b : τ} (hab : P a b) :
    P (d.hold a).2 b := by
  induction d generalizing a with
  | done result => exact hab
  | tell command later ih => exact ih (h.executeLeft hab command)
  | ask later ih => exact ih _ (h.answerLeft hab)

/-- Hosts that have parted stay so when a dialogue is held with the second of them. -/
lemma hold_right (h : Host.Parting H P) (d : Dialogue α) {a : σ} {b : τ} (hab : P a b) :
    P a (d.hold b).2 := by
  induction d generalizing b with
  | done result => exact hab
  | tell command later ih => exact ih (h.executeRight hab command)
  | ask later ih => exact ih _ (h.answerRight hab)

/-- **A dialogue with hosts that part**: it has the same result with both of them, and they still go
together, or they have parted. -/
lemma hold_parting (h : Host.Parting H P) (d : Dialogue α) {a : σ} {b : τ} (hab : H a b) :
    (d.hold b).1 = (d.hold a).1 ∧ H (d.hold a).2 (d.hold b).2 ∨ P (d.hold a).2 (d.hold b).2 := by
  induction d generalizing a b with
  | done result => exact .inl ⟨rfl, hab⟩
  | tell command later ih =>
    rcases h.execute hab command with htogether | hparted
    · exact ih htogether
    · exact .inr (later.hold_right h (later.hold_left h hparted))
  | ask later ih =>
    rcases h.answer hab with ⟨hsame, htogether⟩ | hparted
    · rw [hold, hold, hsame]
      exact ih _ htogether
    -- From here on the two ways through the dialogue may differ.
    · exact .inr ((later _).hold_right h ((later _).hold_left h hparted))

end Dialogue

namespace Eval.Spoken

variable {p : (σ : Type) → Host σ → Eval σ α} {i : Interpreter σ} {i' : Interpreter τ}

/-- Hosts that have parted stay so when something is run over the first of them. -/
lemma left (hp : Spoken p) (h : Host.Parting H P) {b : τ} (hi : P i.host b) :
    P (p σ inferInstance i).2.host b := by
  obtain ⟨d, hd⟩ := hp
  rw [hd]
  exact (d i.bare).hold_left h hi

/-- Hosts that have parted stay so when something is run over the second of them. -/
lemma right (hp : Spoken p) (h : Host.Parting H P) {a : σ} (hi : P a i'.host) :
    P a (p τ inferInstance i').2.host := by
  obtain ⟨d, hd⟩ := hp
  rw [hd]
  exact (d i'.bare).hold_right h hi

/-- **Runs over hosts that part** end in the same way and differ in nothing but their hosts, which
still go together, or the hosts have parted. -/
lemma parting (hp : Spoken p) (h : Host.Parting H P) (hi : Interpreter.Over H i i') :
    (p τ inferInstance i').1 = (p σ inferInstance i).1 ∧
        Interpreter.Over H (p σ inferInstance i).2 (p τ inferInstance i').2 ∨
      P (p σ inferInstance i).2.host (p τ inferInstance i').2.host := by
  obtain ⟨d, hd⟩ := hp
  have hbare : i'.bare = i.bare := by
    rw [Interpreter.bare, Interpreter.bare, hi.scopes, hi.errors, hi.limit, hi.callDepth]
  rw [hd, hd, hbare]
  rcases (d i.bare).hold_parting h hi.host with ⟨hsame, htogether⟩ | hparted
  · rw [spokenResult, spokenResult, hsame]
    exact .inl ⟨rfl, rfl, htogether, rfl, rfl, rfl⟩
  · exact .inr hparted

end Eval.Spoken

end Parting

end DialogueScript
