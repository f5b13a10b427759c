import DialogueScript.Proofs.Interpreter.Descent

set_option autoImplicit false

/-!
# The course of a run

What lies inside a run that ends is over before its end. If a moment comes directly inside another
one whose job ends, then its own job ends, and from there the run goes on in the same scope, or the
call whose body it was returns. Hence, what a job has done at any moment of a run is done when the
run ends, as far as nothing that a run can do undoes it.

Every job begins with its operands, and all that follows depends on their values alone. This is said
once for all jobs, so that operands and calls need no case for each construct.

## Main definitions

* `DialogueScript.Job.OperandsFirst` — a job is its operands and what follows them.
* `DialogueScript.Moment.EndsBefore` — a job is over before the end of another one.

## Main results

* `DialogueScript.Job.operandsFirst` — every job is so.
* `DialogueScript.Enters.ends` — a job directly inside a job that ends is over before it.
* `DialogueScript.Visits.ends` — so it is with jobs at any depth.
-/

namespace DialogueScript

open Eval

variable {σ : Type} [Host σ]

/-! ## Sequences that end -/

namespace Eval

variable {α β : Type} {p : Eval σ α} {f : α → Eval σ β} {scope : ScopeId} {i j k : Interpreter σ}
  {outcome : Outcome β}

/-- In a sequence that ends the first part ends, and then the run goes on. -/
lemma ends_bind (h : (p >>= f) i = (outcome, k)) (hends : outcome.Ends)
    (hf : ∀ a, Runs (fun _ => True) scope (f a)) :
    ∃ first j, p i = (first, j) ∧ first.Ends ∧ Evolves (fun _ => True) scope j k := by
  rcases hpi : p i with ⟨a | _ | _, j⟩
  · rw [bind_of_done hpi] at h
    exact ⟨_, j, rfl, trivial, (hf a).evolves_any h⟩
  · rw [bind_of_exitRequested hpi] at h
    obtain ⟨-, rfl⟩ := Prod.mk.inj h
    exact ⟨_, j, rfl, trivial, .refl⟩
  · rw [bind_of_outOfFuel hpi] at h
    obtain ⟨rfl, -⟩ := Prod.mk.inj h
    exact hends.elim

omit [Host σ] in
/-- In a sequence that ends, what follows a result goes on from there, with whatever fuel that
result was found. -/
lemma rest_of_bind {p : Nat → Eval σ α} {fuel fuel' : Nat} {a : α} (hp : Steady p)
    (h : (p fuel >>= f) i = (outcome, k)) (hends : outcome.Ends)
    (ha : p fuel' i = (.done a, j)) : f a j = (outcome, k) := by
  rcases hpi : p fuel i with ⟨b | _ | _, l⟩
  · obtain ⟨hab, rfl⟩ := hp.unique ha trivial hpi trivial
    obtain rfl := Outcome.done.inj hab
    rwa [bind_of_done hpi] at h
  · cases (hp.unique ha trivial hpi trivial).1
  · rw [bind_of_outOfFuel hpi] at h
    obtain ⟨rfl, -⟩ := Prod.mk.inj h
    exact hends.elim

omit [Host σ] in
/-- A computation without its result ends as the computation does. -/
lemma ends_of_discard {outcome : Outcome Unit} (h : (p >>= fun _ => pure ()) i = (outcome, k))
    (hends : outcome.Ends) : ∃ first, p i = (first, k) ∧ first.Ends := by
  rcases hpi : p i with ⟨a | _ | _, j⟩
  · rw [bind_of_done hpi] at h
    obtain ⟨-, rfl⟩ := Prod.mk.inj h
    exact ⟨_, rfl, trivial⟩
  · rw [bind_of_exitRequested hpi] at h
    obtain ⟨-, rfl⟩ := Prod.mk.inj h
    exact ⟨_, rfl, trivial⟩
  · rw [bind_of_outOfFuel hpi] at h
    obtain ⟨rfl, -⟩ := Prod.mk.inj h
    exact hends.elim

omit [Host σ] in
/-- If a computation ends, then it does so also without its result. -/
lemma exists_discard {first : Outcome α} (h : p i = (first, k)) (hends : first.Ends) :
    ∃ outcome : Outcome Unit, (p >>= fun _ => pure ()) i = (outcome, k) ∧ outcome.Ends := by
  cases first with
  | done a => exact ⟨.done (), bind_of_done h, trivial⟩
  | exitRequested => exact ⟨_, bind_of_exitRequested h, trivial⟩
  | outOfFuel => exact hends.elim

end Eval

/-! ## Operands first -/

omit [Host σ] in
/-- The values of some expressions and then of others. -/
lemma valuesOf_append (eval : Expr → Eval σ Value) (es later : List Expr) :
    valuesOf eval (es ++ later) =
      valuesOf eval es >>= fun values => valuesOf eval later >>= fun more =>
        pure (values ++ more) := by
  induction es with
  | nil =>
    funext i
    rcases h : valuesOf eval later i with ⟨values | _ | _, j⟩
    · simp only [List.nil_append, valuesOf, bind, pure, h]
    · simp only [List.nil_append, valuesOf, bind, pure, h]
    · simp only [List.nil_append, valuesOf, bind, pure, h]
  | cons e es ih =>
    rw [List.cons_append, valuesOf, valuesOf, ih]
    simp only [bind_bind]
    rfl

omit [Host σ] in
/-- A comparison only depends on the values of the sides that are there. -/
lemma exists_comparisonValue_eq (left : Option Expr) (op : BinaryOp) (right : Option Expr) :
    ∃ compare : List Value → Value, ∀ eval : Expr → Eval σ Value,
      comparisonValue eval left op right =
        valuesOf eval (left.toList ++ right.toList) >>= fun values => pure (compare values) := by
  cases left with
  | none =>
    cases right with
    | none => exact ⟨fun _ => .bool (op.apply .nil .nil), fun _ => rfl⟩
    | some b =>
      refine ⟨fun values => .bool (op.apply .nil (values.headD .nil)), fun eval => ?_⟩
      simp only [Option.toList, List.nil_append, valuesOf, bind_bind]
      rfl
  | some a =>
    cases right with
    | none =>
      refine ⟨fun values => .bool (op.apply (values.headD .nil) .nil), fun eval => ?_⟩
      simp only [Option.toList, List.append_nil, valuesOf, bind_bind]
      rfl
    | some b =>
      refine ⟨fun values => .bool (op.apply (values.headD .nil) (values.tail.headD .nil)),
        fun eval => ?_⟩
      simp only [Option.toList, List.singleton_append, valuesOf, bind_bind]
      rfl

/-- The run of the job begins with its operands, and what follows depends on their values. If the
job calls a function, then that is all that follows. -/
def Job.OperandsFirst (job : Job) (scope : ScopeId) (run : Eval σ Unit) : Prop :=
  ∃ (fuel : Nat) (rest : List Value → Eval σ Unit),
    run = (valuesOf (evaluate fuel scope) job.operands >>= fun values => rest values) ∧
    (∀ values, Runs (fun _ => True) scope (rest values)) ∧
    ∀ name, job.callee? = some name →
      ∀ values, rest values = (Job.call name values).run fuel scope

section OperandsFirst

variable {job : Job} {scope : ScopeId} {fuel : Nat}

/-- Going on unless something has been returned. -/
lemma runs_unlessReturned {p : Eval σ Flow} (hp : Runs (fun _ => True) scope p) (flow : Flow) :
    Runs (fun _ => True) scope (match flow with
      | .normal => p
      | .returned value => pure (.returned value)) := by
  cases flow with
  | normal => exact hp
  | returned value => exact runs_pure _

/-- A job without operands is all rest. -/
lemma Job.operandsFirst_of_nil (hoperands : job.operands = []) (hcallee : job.callee? = none) :
    job.OperandsFirst scope (job.run fuel scope : Eval σ Unit) := by
  refine ⟨0, fun _ => job.run fuel scope, ?_, fun _ => job.runs fuel, ?_⟩
  · rw [hoperands]
    rfl
  · intro name hname
    rw [hcallee] at hname
    cases hname

/-- A job that begins with a single operand. -/
lemma Job.operandsFirst_of_single {e : Expr} {rest : Value → Eval σ Unit} {run : Eval σ Unit}
    (hoperands : job.operands = [e]) (hcallee : job.callee? = none)
    (hrun : run = (evaluate fuel scope e >>= fun value => rest value))
    (hrest : ∀ value, Runs (fun _ => True) scope (rest value)) :
    job.OperandsFirst scope run := by
  refine ⟨fuel, fun values => rest (values.headD .nil), ?_, fun _ => hrest _, ?_⟩
  · rw [hrun, hoperands, valuesOf, bind_bind]
    rfl
  · intro name hname
    rw [hcallee] at hname
    cases hname

/-- A job that begins with a condition. -/
lemma Job.operandsFirst_of_condition (guard : Condition) {rest : Value → Eval σ Unit}
    {run : Eval σ Unit} (hoperands : job.operands = guard.operands) (hcallee : job.callee? = none)
    (hrun : run = (evaluateCondition fuel scope guard >>= fun value => rest value))
    (hrest : ∀ value, Runs (fun _ => True) scope (rest value)) :
    job.OperandsFirst scope run := by
  obtain ⟨compare, hcompare⟩ := exists_comparisonValue_eq (σ := σ) guard.left guard.op guard.right
  refine ⟨fuel, fun values => rest (compare values), ?_, fun _ => hrest _, ?_⟩
  · rw [hrun, hoperands, evaluateCondition, conditionValue, hcompare, bind_bind]
    rfl
  · intro name hname
    rw [hcallee] at hname
    cases hname

/-- **A job is its operands and what follows them.** -/
lemma Job.operandsFirst (job : Job) (scope : ScopeId) (fuel : Nat) :
    job.OperandsFirst scope (job.run (fuel + 1) scope : Eval σ Unit) := by
  cases job with
  | expression e =>
    cases e with
    | literal kind text => exact operandsFirst_of_nil rfl rfl
    | var name => exact operandsFirst_of_nil rfl rfl
    | call name args =>
      refine ⟨fuel, fun values => (Job.call name values).run fuel scope, bind_bind _ _ _,
        fun _ => Job.runs fuel _, ?_⟩
      rintro _ ⟨⟩ values
      rfl
    | binary left op right =>
      exact operandsFirst_of_condition ⟨left, op, right⟩ rfl rfl rfl fun _ => runs_pure _
  | condition guard => exact operandsFirst_of_condition _ rfl rfl rfl fun _ => runs_pure _
  | call name args => exact operandsFirst_of_nil rfl rfl
  | statement s =>
    cases s with
    | assign name value =>
      exact operandsFirst_of_single rfl rfl (bind_bind _ _ _) fun result =>
        ((runs_assign name result).bind fun _ => runs_pure _).bind fun _ => runs_pure _
    | call name args =>
      refine ⟨fuel, fun values => (Job.call name values).run fuel scope, ?_,
        fun _ => Job.runs fuel _, ?_⟩
      · refine (bind_bind _ _ _).trans (congrArg (valuesOf (evaluate fuel scope) args >>= ·) ?_)
        funext values
        exact bind_bind _ _ _
      · rintro _ ⟨⟩ values
        rfl
    | declare name params body => exact operandsFirst_of_nil rfl rfl
    | globals names => exact operandsFirst_of_nil rfl rfl
    | locals names => exact operandsFirst_of_nil rfl rfl
    | branch guard thenBody elseBody =>
      exact operandsFirst_of_condition _ rfl rfl (bind_bind _ _ _) fun _ =>
        (runs_runStatements_any fuel _).bind fun _ => runs_pure _
    | select selector cases =>
      refine operandsFirst_of_single rfl rfl (bind_bind _ _ _) fun selected => ?_
      rw [bind_bind]
      exact Job.runs fuel (.choose selected cases)
    | loop guard body =>
      refine operandsFirst_of_condition _ rfl rfl (bind_bind _ _ _) fun value =>
        Runs.bind ?_ fun _ => runs_pure _
      split
      · exact (runs_runStatements_any fuel body).bind fun flow =>
          runs_unlessReturned (runs_execute_any fuel (.loop guard body)) flow
      · exact runs_pure _
    | ret value =>
      cases value with
      | none => exact operandsFirst_of_nil rfl rfl
      | some e =>
        exact operandsFirst_of_single rfl rfl (bind_bind _ _ _) fun _ =>
          (runs_pure _).bind fun _ => runs_pure _
    | exitCode => exact operandsFirst_of_nil rfl rfl
  | block statements => exact operandsFirst_of_nil rfl rfl
  | choose selected cases => exact operandsFirst_of_nil rfl rfl

end OperandsFirst

/-! ## Moments of a run that ends -/

/-- More fuel does not change how a job ends. -/
lemma Job.steady (job : Job) (scope : ScopeId) :
    Steady fun fuel => (job.run fuel scope : Eval σ Unit) := by
  cases job with
  | expression e => exact (steady_evaluate scope e).bind fun _ => steady_const _
  | condition guard => exact (steady_evaluateCondition scope guard).bind fun _ => steady_const _
  | call name args => exact (steady_callFunction scope name args).bind fun _ => steady_const _
  | statement s => exact (steady_execute scope s).bind fun _ => steady_const _
  | block statements =>
    exact (steady_runStatements scope statements).bind fun _ => steady_const _
  | choose selected cases =>
    exact (steady_selectCase scope selected cases).bind fun body =>
      (steady_runStatements scope body).bind fun _ => steady_const _

/-- The job of the moment ends, and then the run goes on to the given interpreter, either in the
given scope or by returning from the call whose body the job is. -/
def Moment.EndsBefore (m : Moment σ) (scope : ScopeId) (k : Interpreter σ) : Prop :=
  ∃ (fuel : Nat) (outcome : Outcome Unit) (j : Interpreter σ),
    m.job.run fuel m.scope m.state = (outcome, j) ∧ outcome.Ends ∧
      (Evolves (fun _ => True) scope j k ∨ k = j.leave)

section EndsBefore

variable {α : Type} {scope : ScopeId} {i j k : Interpreter σ} {fuel : Nat} {outcome : Outcome Unit}

/-- The value of an expression is found, and then the run goes on. -/
lemma Moment.endsBefore_of_evaluate {e : Expr} {f : Value → Eval σ α} {last : Outcome α}
    (h : (evaluate fuel scope e >>= f) i = (last, k)) (hends : last.Ends)
    (hf : ∀ value, Runs (fun _ => True) scope (f value)) :
    (Moment.mk scope (.expression e) i).EndsBefore scope k := by
  obtain ⟨first, j, hfirst, hfirstEnds, hrest⟩ := ends_bind h hends hf
  obtain ⟨outcome, hrun, houtcome⟩ := exists_discard hfirst hfirstEnds
  exact ⟨fuel, outcome, j, hrun, houtcome, .inl hrest⟩

/-- A block is run to its end, and then the run goes on. -/
lemma Moment.endsBefore_of_runStatements {statements : List Stmt} {f : Flow → Eval σ α}
    {last : Outcome α} (h : (runStatements fuel scope statements >>= f) i = (last, k))
    (hends : last.Ends) (hf : ∀ flow, Runs (fun _ => True) scope (f flow)) :
    (Moment.mk scope (.block statements) i).EndsBefore scope k := by
  obtain ⟨first, j, hfirst, hfirstEnds, hrest⟩ := ends_bind h hends hf
  obtain ⟨outcome, hrun, houtcome⟩ := exists_discard hfirst hfirstEnds
  exact ⟨fuel, outcome, j, hrun, houtcome, .inl hrest⟩

/-- An operand is evaluated before the job ends. -/
lemma Enters.ends_operand {job : Job} {earlier later : List Expr} {e : Expr} {values : List Value}
    {fuel' : Nat} (hoperands : job.operands = earlier ++ e :: later)
    (hearlier : valuesOf (evaluate fuel' scope) earlier i = (.done values, j))
    (hrun : job.run (fuel + 1) scope i = (outcome, k)) (hends : outcome.Ends) :
    (Moment.mk scope (.expression e) j).EndsBefore scope k := by
  obtain ⟨amount, rest, heq, hrest, -⟩ := job.operandsFirst scope fuel (σ := σ)
  rw [heq, hoperands, valuesOf_append, bind_bind] at hrun
  -- What follows the operands to the left begins with this one.
  have hgoes := rest_of_bind (steady_valuesOf scope earlier) hrun hends hearlier
  rw [valuesOf, bind_bind, bind_bind] at hgoes
  refine Moment.endsBefore_of_evaluate hgoes hends fun value => ?_
  exact ((runs_valuesOf_any amount later).bind fun _ => runs_pure _).bind fun _ =>
    (runs_pure _).bind fun _ => hrest _

/-- A function is called before the job ends. -/
lemma Enters.ends_callee {job : Job} {name : String} {values : List Value} {fuel' : Nat}
    (hname : job.callee? = some name)
    (hvalues : valuesOf (evaluate fuel' scope) job.operands i = (.done values, j))
    (hrun : job.run (fuel + 1) scope i = (outcome, k)) (hends : outcome.Ends) :
    (Moment.mk scope (.call name values) j).EndsBefore scope k := by
  obtain ⟨amount, rest, heq, -, hcall⟩ := job.operandsFirst scope fuel (σ := σ)
  rw [heq] at hrun
  have hgoes := rest_of_bind (steady_valuesOf scope job.operands) hrun hends hvalues
  rw [hcall name hname] at hgoes
  exact ⟨amount, outcome, k, hgoes, hends, .inl .refl⟩

/-- The body of a function is run to its end before the call ends, which then returns. -/
lemma Enters.ends_body {name : String} {args : List Value} {decl : FunctionDecl}
    (hdecl : i.scopes.function? scope name = some decl) (hdepth : i.callDepth < i.limit)
    (hrun : (Job.call name args).run (fuel + 1) scope i = (outcome, k)) (hends : outcome.Ends) :
    (Moment.mk i.scopes.depth (.block decl.body) (i.enter decl.params args)).EndsBefore scope
      k := by
  obtain ⟨first, hfirst, hfirstEnds⟩ := ends_of_discard hrun hends
  rcases hbody : runStatements fuel i.scopes.depth decl.body (i.enter decl.params args) with
    ⟨flow, j⟩
  rw [callFunction_of_lt hdecl hdepth hbody] at hfirst
  obtain ⟨rfl, rfl⟩ := Prod.mk.inj hfirst
  obtain ⟨last, hlast, hlastEnds⟩ := exists_discard hbody (Outcome.ends_map.mp hfirstEnds)
  exact ⟨fuel, last, j, hlast, hlastEnds, .inr rfl⟩

/-- The value of a case is found and, if it is not selected, the search goes on, before the choice
is over. -/
lemma Enters.choose_eq {selected : Value} {block : CaseBlock} {later : List CaseBlock} :
    ((Job.choose selected (block :: later)).run fuel scope : Eval σ Unit) =
      evaluate fuel scope block.value >>= fun value =>
        if selected.scriptEq value then (Job.block block.body).run fuel scope
        else (Job.choose selected later).run fuel scope := by
  refine (bind_bind _ _ _).trans (congrArg (evaluate fuel scope block.value >>= ·) ?_)
  funext value
  split
  · rfl
  · rfl

end EndsBefore

/-- **What is directly inside a job that ends is over before it.**

**Proof sketch.** Each construct is a sequence, one part of which is the job inside. The parts
before it have led to the moment, so that the sequence goes on with it from there; and since the
sequence ends, it ends. -/
lemma Enters.ends {m n : Moment σ} (h : Enters m n) {fuel : Nat} {outcome : Outcome Unit}
    {k : Interpreter σ} (hrun : m.job.run fuel m.scope m.state = (outcome, k))
    (hends : outcome.Ends) : n.EndsBefore m.scope k := by
  -- A unit of fuel to spare changes nothing, and lets every job begin.
  replace hrun : m.job.run (fuel + 1) m.scope m.state = (outcome, k) :=
    (m.job.steady m.scope).eq_of_le (Nat.le_succ fuel) hrun hends
  cases h with
  | operand hoperands hearlier => exact ends_operand hoperands hearlier hrun hends
  | callee hname hvalues => exact ends_callee hname hvalues hrun hends
  | body hdecl hdepth => exact ends_body hdecl hdepth hrun hends
  | @first scope s later i =>
    obtain ⟨first, hfirst, hfirstEnds⟩ := ends_of_discard hrun hends
    obtain ⟨flow, j, hj, hflow, hrest⟩ := ends_bind hfirst hfirstEnds fun flow =>
      runs_unlessReturned (runs_runStatements_any (fuel + 1) later) flow
    obtain ⟨last, hlast, hlastEnds⟩ := exists_discard hj hflow
    exact ⟨_, last, j, hlast, hlastEnds, .inl hrest⟩
  | @later scope s later i j _ hnormal =>
    obtain ⟨first, hfirst, hfirstEnds⟩ := ends_of_discard hrun hends
    have hgoes := rest_of_bind (steady_execute scope s) hfirst hfirstEnds hnormal
    obtain ⟨last, hlast, hlastEnds⟩ := exists_discard hgoes hfirstEnds
    exact ⟨fuel + 1, last, k, hlast, hlastEnds, .inl .refl⟩
  | @branch scope condition thenBody elseBody i j _ value hcondition =>
    obtain ⟨first, hfirst, hfirstEnds⟩ := ends_of_discard hrun hends
    have hgoes := rest_of_bind (steady_evaluateCondition scope condition) hfirst hfirstEnds
      hcondition
    obtain ⟨last, hlast, hlastEnds⟩ := exists_discard hgoes hfirstEnds
    exact ⟨fuel, last, k, hlast, hlastEnds, .inl .refl⟩
  | @select scope selector cases i j _ selected hselector =>
    have hseq : (evaluate fuel scope selector >>= fun selected =>
        (Job.choose selected cases).run fuel scope) i = (outcome, k) := by
      rw [← hrun]
      refine (congrFun ((bind_bind _ _ _).trans (congrArg (evaluate fuel scope selector >>= ·) ?_))
        i).symm
      funext selected
      exact bind_bind _ _ _
    have hgoes := rest_of_bind (steady_evaluate scope selector) hseq hends hselector
    exact ⟨fuel, outcome, k, hgoes, hends, .inl .refl⟩
  | @caseValue scope selected block later i =>
    rw [choose_eq] at hrun
    refine Moment.endsBefore_of_evaluate hrun hends fun value => ?_
    split
    · exact Job.runs _ _
    · exact Job.runs _ _
  | @caseBody scope selected value block later i j _ hvalue heq =>
    rw [choose_eq] at hrun
    have hgoes := rest_of_bind (steady_evaluate scope block.value) hrun hends hvalue
    rw [if_pos heq] at hgoes
    exact ⟨fuel + 1, outcome, k, hgoes, hends, .inl .refl⟩
  | @nextCase scope selected value block later i j _ hvalue hne =>
    rw [choose_eq] at hrun
    have hgoes := rest_of_bind (steady_evaluate scope block.value) hrun hends hvalue
    rw [if_neg (by simp [hne])] at hgoes
    exact ⟨fuel + 1, outcome, k, hgoes, hends, .inl .refl⟩
  | @round scope condition body i j _ value hcondition hvalue =>
    obtain ⟨first, hfirst, hfirstEnds⟩ := ends_of_discard hrun hends
    have hgoes := rest_of_bind (steady_evaluateCondition scope condition) hfirst hfirstEnds
      hcondition
    rw [if_pos hvalue] at hgoes
    exact Moment.endsBefore_of_runStatements hgoes hfirstEnds fun flow =>
      runs_unlessReturned (runs_execute_any fuel (.loop condition body)) flow
  | @again scope condition body i j _ _ value hcondition hvalue hbody =>
    obtain ⟨first, hfirst, hfirstEnds⟩ := ends_of_discard hrun hends
    have hgoes := rest_of_bind (steady_evaluateCondition scope condition) hfirst hfirstEnds
      hcondition
    rw [if_pos hvalue] at hgoes
    have hagain := rest_of_bind (steady_runStatements scope body) hgoes hfirstEnds hbody
    obtain ⟨last, hlast, hlastEnds⟩ := exists_discard hagain hfirstEnds
    exact ⟨fuel, last, k, hlast, hlastEnds, .inl .refl⟩

/-- **What is inside a run that ends is over before it**, at whatever depth. What the end of the job
has, and what nothing that a run can do and no return from a call takes away, the end of the run
has. -/
lemma Visits.ends {m n : Moment σ} (h : Visits m n) {P : Interpreter σ → Prop}
    (hevolves : ∀ {scope : ScopeId} {i j : Interpreter σ}, Evolves (fun _ => True) scope i j →
      P i → P j)
    (hleave : ∀ {i : Interpreter σ}, P i → P i.leave)
    (hP : ∀ fuel outcome j, n.job.run fuel n.scope n.state = (outcome, j) → outcome.Ends → P j)
    {fuel : Nat} {outcome : Outcome Unit} {k : Interpreter σ}
    (hrun : m.job.run fuel m.scope m.state = (outcome, k)) (hends : outcome.Ends) : P k := by
  -- By induction along the way, from the inside out.
  induction h using Relation.ReflTransGen.head_induction_on generalizing fuel outcome k with
  | refl => exact hP fuel outcome k hrun hends
  | head hstep _ ih =>
    obtain ⟨fuel', inner, j, hinner, hinnerEnds, hgoes⟩ := hstep.ends hrun hends
    have hj := ih hinner hinnerEnds
    rcases hgoes with hgoes | rfl
    · exact hevolves hgoes hj
    · exact hleave hj

end DialogueScript
