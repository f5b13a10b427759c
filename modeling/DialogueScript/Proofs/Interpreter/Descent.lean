import DialogueScript.Proofs.Interpreter.Calls
import DialogueScript.Proofs.Interpreter.Simulation

set_option autoImplicit false

/-!
# Runs that end

A computation *terminates* if there is an amount of fuel with which it is followed to its end. More
fuel does not change how it ends, so computations that terminate can be put together without a word
about how much fuel each of them needs.

A moment terminates as soon as all moments directly inside it do. Hence the only way not to end is
to go into ever new moments without bound; where every way inwards is finite, the run ends. In this
argument each construct of the language meets all the rules for its moments, so it also shows that
the rules leave nothing out on which an end could depend.

## Main definitions

* `DialogueScript.Eval.Terminates` — some amount of fuel is enough.
* `DialogueScript.Moment.Terminates` — the same for the job of a moment.

## Main results

* `DialogueScript.Eval.Terminates.bind` — one computation after another.
* `DialogueScript.Moment.terminates_of_enters` — a moment ends if all moments directly inside do.
* `DialogueScript.Moment.terminates_of_acc` — a run ends if all ways inwards are finite.
-/

namespace DialogueScript

variable {σ : Type}

/-- Changing the result of a computation does not change whether it ends. -/
lemma Outcome.ends_map {α β : Type} {f : α → β} {outcome : Outcome α} :
    (outcome.map f).Ends ↔ outcome.Ends := by
  cases outcome with
  | done a => exact Iff.rfl
  | exitRequested => exact Iff.rfl
  | outOfFuel => exact Iff.rfl

/-! ## Computations that need no fuel -/

namespace Eval

variable {α β : Type} {p : Eval σ α} {f : α → Eval σ β}

/-- The computation ends wherever it begins. -/
def AlwaysEnds (p : Eval σ α) : Prop :=
  ∀ i, (p i).1.Ends

/-- A result that is there at once is an end. -/
lemma alwaysEnds_pure (a : α) : AlwaysEnds (pure a : Eval σ α) :=
  fun _ => trivial

/-- A question about the interpreter ends. -/
lemma alwaysEnds_look (f : Interpreter σ → α) : AlwaysEnds (look f) :=
  fun _ => trivial

/-- A change of the interpreter ends. -/
lemma alwaysEnds_modify (f : Interpreter σ → Interpreter σ) : AlwaysEnds (modify f) :=
  fun _ => trivial

/-- A report ends. -/
lemma alwaysEnds_report (error : RuntimeError) : AlwaysEnds (report error : Eval σ Unit) :=
  fun _ => trivial

/-- Computations that always end do so one after the other. -/
lemma AlwaysEnds.bind (hp : AlwaysEnds p) (hf : ∀ a, AlwaysEnds (f a)) :
    AlwaysEnds (p >>= f) := by
  intro i
  have hends := hp i
  rcases hpi : p i with ⟨a | _ | _, j⟩
  · rw [bind_of_done hpi]
    exact hf a j
  · rw [bind_of_exitRequested hpi]
    trivial
  · rw [hpi] at hends
    exact hends.elim

end Eval

open Eval

/-- The value of a literal is found. -/
lemma alwaysEnds_literalValue (kind : LiteralKind) (text : String) :
    AlwaysEnds (literalValue kind text : Eval σ Value) := by
  cases kind with
  | string => exact alwaysEnds_pure _
  | boolean => exact alwaysEnds_pure _
  | number =>
    simp only [literalValue]
    split
    · exact alwaysEnds_pure _
    · exact (alwaysEnds_report _).bind fun _ => alwaysEnds_pure _

/-- Advancing the phase ends. -/
lemma alwaysEnds_stepPhase : AlwaysEnds (Builtin.stepPhase : Eval σ Unit) := by
  refine (alwaysEnds_look _).bind fun phase => ?_
  cases Builtin.nextPhase? phase with
  | ok next => exact alwaysEnds_modify _
  | error actual => exact alwaysEnds_report _

variable [Host σ]

/-- Asking for an answer ends, with or without one. -/
lemma alwaysEnds_askAnswer : AlwaysEnds (Builtin.askAnswer : Eval σ Value) := by
  have hread : AlwaysEnds (readAnswer : Eval σ (Option String)) := fun _ => trivial
  refine hread.bind fun answer => ?_
  cases answer with
  | none => exact (alwaysEnds_report _).bind fun _ => alwaysEnds_pure _
  | some line =>
    simp only
    split
    · exact alwaysEnds_pure _
    · exact (alwaysEnds_report _).bind fun _ => alwaysEnds_pure _

/-- A call of a built-in function ends. -/
lemma alwaysEnds_builtin (builtin : Builtin) (args : List Value) :
    AlwaysEnds (builtin.run args : Eval σ Value) := by
  have hcommand : ∀ command : Option Command,
      AlwaysEnds (command.forM Eval.execute : Eval σ Unit) := by
    intro command
    cases command with
    | none => exact alwaysEnds_pure _
    | some command => exact alwaysEnds_modify _
  cases builtin with
  | puppetEvent => exact alwaysEnds_askAnswer
  | advancePhase => exact alwaysEnds_stepPhase.bind fun _ => alwaysEnds_pure _
  | _ => exact (hcommand _).bind fun _ => alwaysEnds_pure _

/-! ## Computations with enough fuel -/

namespace Eval

variable {α β : Type} {p : Nat → Eval σ α} {f : α → Nat → Eval σ β} {i : Interpreter σ}

omit [Host σ] in
/-- A computation that is given no fuel is steady. -/
lemma steady_const (q : Eval σ α) : Steady fun _ => q := by
  rintro _ _ - i _ rfl _
  exact ⟨rfl, rfl⟩

omit [Host σ] in
/-- Steady computations one after the other are steady. -/
lemma Steady.bind (hp : Steady p) (hf : ∀ a, Steady (f a)) :
    Steady fun fuel => p fuel >>= fun a => f a fuel :=
  fun _ _ hle => (hp hle).bind fun a => hf a hle

omit [Host σ] in
/-- Going on unless something has been returned. -/
lemma Steady.unlessReturned {p : Nat → Eval σ Flow} (hp : Steady p) (flow : Flow) :
    Steady fun fuel => match flow with
      | .normal => p fuel
      | .returned value => pure (.returned value) := by
  cases flow with
  | normal => exact hp
  | returned value => exact steady_const _

/-- Some amount of fuel is enough for the computation to end. -/
def Terminates (p : Nat → Eval σ α) (i : Interpreter σ) : Prop :=
  ∃ fuel, (p fuel i).1.Ends

omit [Host σ] in
/-- A computation that has ended once terminates. -/
lemma terminates_of_eq {fuel : Nat} {outcome : Outcome α} {j : Interpreter σ}
    (h : p fuel i = (outcome, j)) (hends : outcome.Ends) : Terminates p i := by
  refine ⟨fuel, ?_⟩
  rw [h]
  exact hends

omit [Host σ] in
/-- A computation that always ends terminates from everywhere. -/
lemma AlwaysEnds.terminates {q : Eval σ α} (hq : AlwaysEnds q) : Terminates (fun _ => q) i :=
  ⟨0, hq i⟩

omit [Host σ] in
/-- A computation may spend a unit of fuel before it does anything. -/
lemma Terminates.of_succ (h : Terminates (fun fuel => p (fuel + 1)) i) : Terminates p i := by
  obtain ⟨fuel, hends⟩ := h
  exact ⟨fuel + 1, hends⟩

omit [Host σ] in
/-- **One computation after another** terminates if the second terminates wherever the first one
leads. -/
lemma Terminates.bind (h : Terminates p i) (hp : Steady p) (hf : ∀ a, Steady (f a))
    (hlater : ∀ fuel a j, p fuel i = (.done a, j) → Terminates (f a) j) :
    Terminates (fun fuel => p fuel >>= fun a => f a fuel) i := by
  obtain ⟨fuel, hends⟩ := h
  rcases hpi : p fuel i with ⟨a | _ | _, j⟩
  · obtain ⟨more, hmore⟩ := hlater fuel a j hpi
    -- Both parts can do with the greater amount.
    have hfirst : p (max fuel more) i = (.done a, j) :=
      hp.eq_of_le (Nat.le_max_left _ _) hpi trivial
    have hsecond : f a (max fuel more) j = f a more j :=
      (hf a).eq_of_le (Nat.le_max_right _ _) rfl hmore
    refine ⟨max fuel more, ?_⟩
    change ((p (max fuel more) >>= fun a => f a (max fuel more)) i).1.Ends
    rw [bind_of_done hfirst, hsecond]
    exact hmore
  · refine ⟨fuel, ?_⟩
    change ((p fuel >>= fun a => f a fuel) i).1.Ends
    rw [bind_of_exitRequested hpi]
    trivial
  · rw [hpi] at hends
    exact hends.elim

omit [Host σ] in
/-- One computation after another, where the second needs no fuel. -/
lemma Terminates.bind_alwaysEnds {g : α → Eval σ β} (h : Terminates p i) (hp : Steady p)
    (hg : ∀ a, AlwaysEnds (g a)) : Terminates (fun fuel => p fuel >>= g) i :=
  h.bind hp (fun a => steady_const (g a)) fun _ a _ _ => (hg a).terminates

omit [Host σ] in
/-- If two computations in a row terminate, so does the first of them. -/
lemma Terminates.of_bind (h : Terminates (fun fuel => p fuel >>= fun a => f a fuel) i) :
    Terminates p i := by
  obtain ⟨fuel, hends⟩ := h
  refine ⟨fuel, ?_⟩
  change ((p fuel >>= fun a => f a fuel) i).1.Ends at hends
  rcases hpi : p fuel i with ⟨a | _ | _, j⟩
  · trivial
  · trivial
  · rw [bind_of_outOfFuel hpi] at hends
    exact hends

omit [Host σ] in
/-- How computations in a row are grouped does not matter. -/
lemma bind_bind {γ : Type} (q : Eval σ α) (f : α → Eval σ β) (g : β → Eval σ γ) :
    (q >>= f) >>= g = q >>= fun a => f a >>= g := by
  funext i
  rcases hqi : q i with ⟨a | _ | _, j⟩
  · simp only [bind, hqi]
  · simp only [bind, hqi]
  · simp only [bind, hqi]

end Eval

/-! ## More fuel for lists and conditions -/

section

variable (scope : ScopeId)

/-- More fuel does not change the values of some expressions. -/
lemma steady_valuesOf (es : List Expr) :
    Steady fun fuel => (valuesOf (evaluate fuel scope) es : Eval σ (List Value)) :=
  fun _ _ hle => simulated_valuesOf (fun e => steady_evaluate scope e hle) es

/-- More fuel does not change the value of an operand. -/
lemma steady_operandValue (operand : Option Expr) :
    Steady fun fuel => (operandValue (evaluate fuel scope) operand : Eval σ Value) :=
  fun _ _ hle => simulated_operandValue (fun e => steady_evaluate scope e hle) operand

/-- More fuel does not change the value of a condition. -/
lemma steady_evaluateCondition (guard : Condition) :
    Steady fun fuel => (evaluateCondition fuel scope guard : Eval σ Value) :=
  fun _ _ hle => simulated_conditionValue (fun e => steady_evaluate scope e hle) guard

/-- More fuel does not change which body is selected. -/
lemma steady_selectCase (selected : Value) (cases : List CaseBlock) :
    Steady fun fuel => (selectCase (evaluate fuel scope) selected cases : Eval σ (List Stmt)) :=
  fun _ _ hle => simulated_selectCase (fun e => steady_evaluate scope e hle) selected cases

/-- More fuel does not change how some statements end. -/
lemma steady_runStatements (statements : List Stmt) :
    Steady fun fuel => (runStatements fuel scope statements : Eval σ Flow) :=
  fun _ _ hle => simulated_runAll fun s _ => steady_execute scope s hle

end

/-! ## Moments that terminate -/

/-- The job of the moment terminates. -/
def Moment.Terminates (m : Moment σ) : Prop :=
  Eval.Terminates (fun fuel => m.job.run fuel m.scope) m.state

section Constructs

variable {scope : ScopeId} {i : Interpreter σ}

omit [Host σ] in
/-- The values of some expressions and one more. -/
lemma valuesOf_concat_of_done {eval : Expr → Eval σ Value} {es : List Expr} {e : Expr}
    {values : List Value} {value : Value} {i j k : Interpreter σ}
    (hes : valuesOf eval es i = (.done values, j)) (he : eval e j = (.done value, k)) :
    valuesOf eval (es ++ [e]) i = (.done (values ++ [value]), k) := by
  induction es generalizing i values with
  | nil =>
    obtain ⟨rfl, rfl⟩ : [] = values ∧ i = j := by simpa [valuesOf, pure] using hes
    exact bind_of_done he
  | cons first es ih =>
    obtain ⟨a, l, hfirst, hrest⟩ := bind_eq_done_iff.mp hes
    obtain ⟨later, l', hlater, hresult⟩ := bind_eq_done_iff.mp hrest
    obtain ⟨rfl, rfl⟩ : a :: later = values ∧ l' = j := by simpa [pure] using hresult
    rw [List.cons_append, List.cons_append]
    exact (bind_of_done hfirst).trans (bind_of_done (ih hlater))

/-- The operands of a job can be evaluated one by one. -/
lemma terminates_operands {job : Job} (ih : ∀ n, Enters ⟨scope, job, i⟩ n → n.Terminates) :
    Terminates (fun fuel => valuesOf (evaluate fuel scope) job.operands) i := by
  have hlater : ∀ (later earlier : List Expr) (fuel : Nat) (values : List Value)
      (j : Interpreter σ), job.operands = earlier ++ later →
      valuesOf (evaluate fuel scope) earlier i = (.done values, j) →
        Terminates (fun fuel => valuesOf (evaluate fuel scope) later) j := by
    -- By induction on the operands that are still to come, wherever those before them have led.
    intro later
    induction later with
    | nil => exact fun _ _ _ _ _ _ => (alwaysEnds_pure _).terminates
    | cons e later ihl =>
      intro earlier fuel values j hoperands hearlier
      have hfirst : Terminates (fun fuel => evaluate fuel scope e) j :=
        (ih _ (.operand hoperands hearlier)).of_bind
      refine hfirst.bind (steady_evaluate scope e)
        (fun _ => (steady_valuesOf scope later).bind fun _ => steady_const _) ?_
      intro fuel' value k hvalue
      have hboth : valuesOf (evaluate (max fuel fuel') scope) (earlier ++ [e]) i =
          (.done (values ++ [value]), k) :=
        valuesOf_concat_of_done
          ((steady_valuesOf scope earlier).eq_of_le (Nat.le_max_left _ _) hearlier trivial)
          ((steady_evaluate scope e).eq_of_le (Nat.le_max_right _ _) hvalue trivial)
      have hrest := ihl (earlier ++ [e]) _ _ k (by simpa using hoperands) hboth
      exact hrest.bind_alwaysEnds (steady_valuesOf scope later) fun _ => alwaysEnds_pure _
  exact hlater job.operands [] 0 [] i rfl rfl

/-- The first operand of a job can be evaluated. -/
lemma terminates_first {job : Job} (ih : ∀ n, Enters ⟨scope, job, i⟩ n → n.Terminates) {e : Expr}
    {later : List Expr} (hoperands : job.operands = e :: later) :
    Terminates (fun fuel => evaluate fuel scope e) i := by
  have hnone : valuesOf (evaluate 0 scope) [] i = (.done [], i) := rfl
  have hsplit : job.operands = [] ++ e :: later := hoperands
  exact (ih _ (.operand hsplit hnone)).of_bind

/-- A first operand that may be missing. -/
lemma terminates_operandValue {job : Job} (ih : ∀ n, Enters ⟨scope, job, i⟩ n → n.Terminates)
    {operand : Option Expr} {later : List Expr}
    (hoperands : job.operands = operand.toList ++ later) :
    Terminates (fun fuel => operandValue (evaluate fuel scope) operand) i := by
  cases operand with
  | none => exact (alwaysEnds_pure _).terminates
  | some e => exact terminates_first ih hoperands

/-- The sides of a comparison can be evaluated one by one. -/
lemma terminates_comparisonValue {job : Job} (ih : ∀ n, Enters ⟨scope, job, i⟩ n → n.Terminates)
    {left right : Option Expr} (op : BinaryOp)
    (hoperands : job.operands = left.toList ++ right.toList) :
    Terminates (fun fuel => comparisonValue (evaluate fuel scope) left op right) i := by
  have hright : ∀ fuel a j, operandValue (evaluate fuel scope) left i = (.done a, j) →
      Terminates (fun fuel => operandValue (evaluate fuel scope) right) j := by
    intro fuel a j hvalue
    cases left with
    | none =>
      obtain ⟨-, rfl⟩ : Value.nil = a ∧ i = j := by simpa [operandValue, pure] using hvalue
      have hsplit : job.operands = right.toList ++ [] := by simpa using hoperands
      exact terminates_operandValue ih hsplit
    | some e =>
      have hfirst : valuesOf (evaluate fuel scope) [e] i = (.done [a], j) := bind_of_done hvalue
      cases right with
      | none => exact (alwaysEnds_pure _).terminates
      | some e' => exact (ih _ (.operand hoperands hfirst)).of_bind
  refine (terminates_operandValue ih hoperands).bind (steady_operandValue scope left)
    (fun _ => (steady_operandValue scope right).bind fun _ => steady_const _) fun fuel a j ha => ?_
  exact (hright fuel a j ha).bind_alwaysEnds (steady_operandValue scope right) fun _ =>
    alwaysEnds_pure _

/-- An expression terminates if all that comes directly inside it does. -/
lemma terminates_expression {e : Expr}
    (ih : ∀ n, Enters ⟨scope, .expression e, i⟩ n → n.Terminates) :
    Terminates (fun fuel => evaluate fuel scope e) i := by
  apply Terminates.of_succ
  cases e with
  | literal kind text => exact (alwaysEnds_literalValue kind text).terminates
  | var name => exact (alwaysEnds_look _).terminates
  | call name args =>
    refine (terminates_operands ih).bind (steady_valuesOf scope args)
      (fun values => steady_callFunction scope name values) ?_
    intro fuel values j hvalues
    exact (ih _ (.callee rfl hvalues)).of_bind
  | binary left op right => exact terminates_comparisonValue ih op rfl

/-- A condition terminates if all does that comes directly inside a job with its sides for operands.
-/
lemma terminates_condition (guard : Condition) {job : Job}
    (ih : ∀ n, Enters ⟨scope, job, i⟩ n → n.Terminates)
    (hoperands : job.operands = guard.operands) :
    Terminates (fun fuel => evaluateCondition fuel scope guard) i :=
  terminates_comparisonValue ih guard.op hoperands

/-- A call terminates if all that comes directly inside it does. -/
lemma terminates_call {name : String} {args : List Value}
    (ih : ∀ n, Enters ⟨scope, .call name args, i⟩ n → n.Terminates) :
    Terminates (fun fuel => callFunction fuel scope name args) i := by
  cases hdecl : i.scopes.function? scope name with
  | none =>
    cases hbuiltin : Builtin.ofName? name with
    | some builtin =>
      have hcall : callFunction 1 scope name args i = builtin.run args i := by
        simp only [callFunction, bind, look, hdecl, hbuiltin]
      exact terminates_of_eq hcall (alwaysEnds_builtin builtin args i)
    | none =>
      have hcall : callFunction 1 scope name args i =
          (report (.unknownFunction name) >>= fun _ => pure .noValue) i := by
        simp only [callFunction, bind, look, hdecl, hbuiltin]
      exact terminates_of_eq hcall trivial
  | some decl =>
    by_cases hdepth : i.callDepth < i.limit
    · obtain ⟨fuel, hends⟩ := (ih _ (.body hdecl hdepth)).of_bind
      exact terminates_of_eq (callFunction_of_lt hdecl hdepth rfl) (Outcome.ends_map.mpr hends)
    · have hge : i.limit ≤ i.callDepth := Nat.le_of_not_lt hdepth
      exact terminates_of_eq (callFunction_of_ge 0 args hdecl hge) trivial

/-- Statements in a row terminate if all that comes directly inside them does. -/
lemma terminates_block {statements : List Stmt}
    (ih : ∀ n, Enters ⟨scope, .block statements, i⟩ n → n.Terminates) :
    Terminates (fun fuel => runStatements fuel scope statements) i := by
  cases statements with
  | nil => exact (alwaysEnds_pure _).terminates
  | cons s later =>
    have hfirst : Terminates (fun fuel => execute fuel scope s) i := (ih _ .first).of_bind
    refine hfirst.bind (steady_execute scope s)
      (fun flow => (steady_runStatements scope later).unlessReturned flow) ?_
    rintro fuel (_ | value) j hrun
    · exact (ih _ (.later hrun)).of_bind
    · exact (alwaysEnds_pure _).terminates

/-- The choice of a case is the search for it and the run of the body that is found. -/
lemma Moment.terminates_choose_iff {selected : Value} {cases : List CaseBlock} :
    (Moment.mk scope (.choose selected cases) i).Terminates ↔
      Eval.Terminates (fun fuel => selectCase (evaluate fuel scope) selected cases >>= fun body =>
        runStatements fuel scope body) i := by
  have hrun : (fun fuel => ((Job.choose selected cases).run fuel scope : Eval σ Unit)) =
      fun fuel => (selectCase (evaluate fuel scope) selected cases >>= fun body =>
        runStatements fuel scope body) >>= fun _ => pure () :=
    funext fun fuel => (bind_bind _ _ _).symm
  have hsteady : Steady fun fuel => (selectCase (evaluate fuel scope) selected cases >>= fun body =>
      runStatements fuel scope body : Eval σ Flow) :=
    (steady_selectCase scope selected cases).bind fun body => steady_runStatements scope body
  rw [Moment.Terminates, hrun]
  exact ⟨Eval.Terminates.of_bind, fun h => h.bind_alwaysEnds hsteady fun _ => alwaysEnds_pure _⟩

/-- A choice between cases terminates if all that comes directly inside it does. -/
lemma terminates_choose {selected : Value} {cases : List CaseBlock}
    (ih : ∀ n, Enters ⟨scope, .choose selected cases, i⟩ n → n.Terminates) :
    Terminates (fun fuel => selectCase (evaluate fuel scope) selected cases >>= fun body =>
      runStatements fuel scope body) i := by
  cases cases with
  | nil => exact ⟨0, trivial⟩
  | cons block later =>
    have hvalue : Terminates (fun fuel => evaluate fuel scope block.value) i :=
      (ih _ .caseValue).of_bind
    have hsearch : (fun fuel => (selectCase (evaluate fuel scope) selected (block :: later) >>=
        fun body => runStatements fuel scope body : Eval σ Flow)) = fun fuel =>
          evaluate fuel scope block.value >>= fun value =>
            (if selected.scriptEq value then pure block.body
              else selectCase (evaluate fuel scope) selected later) >>= fun body =>
                runStatements fuel scope body :=
      funext fun fuel => bind_bind _ _ _
    rw [hsearch]
    refine hvalue.bind (steady_evaluate scope _) (fun value => ?_) fun fuel value j hrun => ?_
    · refine Steady.bind ?_ fun body => steady_runStatements scope body
      split
      · exact steady_const _
      · exact steady_selectCase scope selected later
    · by_cases heq : selected.scriptEq value = true
      · simp only [heq, if_true]
        exact (ih _ (.caseBody hrun heq)).of_bind
      · simp only [heq]
        exact Moment.terminates_choose_iff.mp (ih _ (.nextCase hrun (by simpa using heq)))

/-- A statement terminates if all that comes directly inside it does. -/
lemma terminates_statement {s : Stmt}
    (ih : ∀ n, Enters ⟨scope, .statement s, i⟩ n → n.Terminates) :
    Terminates (fun fuel => execute fuel scope s) i := by
  apply Terminates.of_succ
  cases s with
  | assign name value =>
    exact (terminates_first ih rfl).bind_alwaysEnds (steady_evaluate scope value) fun _ =>
      (alwaysEnds_modify _).bind fun _ => alwaysEnds_pure _
  | call name args =>
    refine (terminates_operands ih).bind (steady_valuesOf scope args)
      (fun values => (steady_callFunction scope name values).bind fun _ => steady_const _) ?_
    intro fuel values j hvalues
    exact (ih _ (.callee rfl hvalues)).of_bind.bind_alwaysEnds
      (steady_callFunction scope name values) fun _ => alwaysEnds_pure _
  | declare name params body => exact ⟨0, trivial⟩
  | globals names => exact ⟨0, trivial⟩
  | locals names => exact ⟨0, trivial⟩
  | branch condition thenBody elseBody =>
    refine (terminates_condition condition ih rfl).bind
      (steady_evaluateCondition scope condition) (fun value => steady_runStatements scope _) ?_
    intro fuel value j hvalue
    exact (ih _ (.branch hvalue)).of_bind
  | select selector cases =>
    refine (terminates_first ih rfl).bind (steady_evaluate scope selector) (fun selected =>
      (steady_selectCase scope selected cases).bind fun body => steady_runStatements scope body) ?_
    intro fuel selected j hselected
    exact Moment.terminates_choose_iff.mp (ih _ (.select hselected))
  | loop condition body =>
    -- What follows the condition if it holds: a round, and then the loop again.
    have hround : Steady fun fuel => (runStatements fuel scope body >>= fun flow =>
        match flow with
        | .normal => execute fuel scope (.loop condition body)
        | .returned result => pure (.returned result) : Eval σ Flow) :=
      (steady_runStatements scope body).bind fun flow =>
        (steady_execute scope (.loop condition body)).unlessReturned flow
    refine (terminates_condition condition ih rfl).bind (steady_evaluateCondition scope condition)
      (fun value => ?_) fun fuel value j hvalue => ?_
    · split
      · exact hround
      · exact steady_const _
    · by_cases htruthy : value.isTruthy = true
      · simp only [htruthy, if_true]
        refine (ih _ (.round hvalue htruthy)).of_bind.bind (steady_runStatements scope body)
          (fun flow => (steady_execute scope (.loop condition body)).unlessReturned flow) ?_
        rintro more (_ | result) k hbody
        · -- The condition and the body of this round can do with the same fuel.
          have hvalue' := (steady_evaluateCondition scope condition).eq_of_le
            (Nat.le_max_left fuel more) hvalue trivial
          have hbody' := (steady_runStatements scope body).eq_of_le
            (Nat.le_max_right fuel more) hbody trivial
          exact (ih _ (.again hvalue' htruthy hbody')).of_bind
        · exact (alwaysEnds_pure _).terminates
      · simp only [htruthy]
        exact (alwaysEnds_pure _).terminates
  | ret value =>
    have hsplit : Job.operands (.statement (.ret value)) = value.toList ++ [] :=
      (List.append_nil _).symm
    exact (terminates_operandValue ih hsplit).bind_alwaysEnds (steady_operandValue scope value)
      fun _ => alwaysEnds_pure _
  | exitCode => exact ⟨0, trivial⟩

end Constructs

/-- **A moment ends if all moments directly inside it do.** -/
lemma Moment.terminates_of_enters {m : Moment σ} (ih : ∀ n, Enters m n → n.Terminates) :
    m.Terminates := by
  obtain ⟨scope, job, i⟩ := m
  cases job with
  | expression e =>
    exact (terminates_expression ih).bind_alwaysEnds (steady_evaluate scope e) fun _ =>
      alwaysEnds_pure _
  | condition guard =>
    exact (terminates_condition guard ih rfl).bind_alwaysEnds
      (steady_evaluateCondition scope guard) fun _ => alwaysEnds_pure _
  | call name args =>
    exact (terminates_call ih).bind_alwaysEnds (steady_callFunction scope name args) fun _ =>
      alwaysEnds_pure _
  | statement s =>
    exact (terminates_statement ih).bind_alwaysEnds (steady_execute scope s) fun _ =>
      alwaysEnds_pure _
  | block statements =>
    exact (terminates_block ih).bind_alwaysEnds (steady_runStatements scope statements) fun _ =>
      alwaysEnds_pure _
  | choose selected cases => exact terminates_choose_iff.mpr (terminates_choose ih)

/-- **A run ends if all ways inwards are finite.**

**Proof sketch.** By induction along the ways inwards: when all moments directly inside a moment
terminate, it does. -/
theorem Moment.terminates_of_acc {m : Moment σ} (h : Acc (fun n m => Enters m n) m) :
    m.Terminates := by
  induction h with
  | intro m _ ih => exact m.terminates_of_enters ih

end DialogueScript
