import DialogueScript.Proofs.Interpreter.Descent

set_option autoImplicit false

/-!
# Only loops can go on forever

A script without a loop ends, and so do all calls that are made of its functions afterwards. The
functions may call themselves and each other, also in the arguments of calls, and declare each other
anew while they run; the limit on open calls cuts all of this off.

On the way from a moment to one inside it, either a call begins, and one call less can be opened
inside it, or as many calls as before can be opened, and the code gets smaller. The code of a
function has nothing to do with the size of the code that calls it, so that the order of the two
matters. The second part fails only for a loop that begins again.

## Main definitions

* `DialogueScript.Stmt.Loops`, `DialogueScript.Stmt.LoopFree` — loops at any depth, and none.
* `DialogueScript.Moment.LoopFree` — neither the job nor a function has a loop.
* `DialogueScript.Interpreter.callsLeft`, `DialogueScript.Job.size` — what gets smaller.

## Main results

* `DialogueScript.Enters.loopFree` — no loop comes from code without loops.
* `DialogueScript.Enters.descends` — without loops, all ways inwards go down.
* `DialogueScript.Moment.LoopFree.acc` — hence they are finite.
* `DialogueScript.runScript_terminates` — scripts without loops end, and so do calls afterwards.
-/

namespace DialogueScript

open Eval

/-! ## Code without loops -/

/-- A loop lies in the statement, at whatever depth, also in the functions that it declares. -/
inductive Stmt.Loops : Stmt → Prop
  /-- It is a loop. -/
  | here {condition : Condition} {body : List Stmt} : Stmt.Loops (.loop condition body)
  /-- A loop lies in one of its blocks. -/
  | inside {s t : Stmt} {block : List Stmt} (hblock : block ∈ s.childBlocks) (ht : t ∈ block)
      (h : Stmt.Loops t) : Stmt.Loops s

/-- There is no loop in the statement, at any depth. -/
def Stmt.LoopFree (s : Stmt) : Prop :=
  ¬ s.Loops

namespace Stmt.LoopFree

variable {s : Stmt}

/-- There is no loop inside a statement without loops. -/
lemma inside (h : s.LoopFree) : ∀ block ∈ s.childBlocks, ∀ t ∈ block, t.LoopFree :=
  fun _ hblock _ ht hloops => h (.inside hblock ht hloops)

/-- A statement that is no loop, and has none inside it, is without loops. -/
lemma of_inside (hs : ∀ condition body, s ≠ .loop condition body)
    (h : ∀ block ∈ s.childBlocks, ∀ t ∈ block, t.LoopFree) : s.LoopFree := by
  intro hloops
  cases hloops with
  | here => exact hs _ _ rfl
  | inside hblock ht hinner => exact h _ hblock _ ht hinner

end Stmt.LoopFree

/-- The statements of a job that are not in a function. -/
def Job.code : Job → List Stmt
  | statement s => [s]
  | block statements => statements
  | choose _ cases => cases.flatMap CaseBlock.body
  | expression _ | condition _ | call _ _ => []

variable {σ : Type} [Host σ]

/-- Neither the job nor a function of the interpreter has a loop. -/
structure Moment.LoopFree (m : Moment σ) : Prop where
  /-- The job has none. -/
  job : ∀ s ∈ m.job.code, s.LoopFree
  /-- The functions have none. -/
  functions : m.state.scopes.EveryFunction (FunctionDecl.MadeOf Stmt.LoopFree)

/-! ## From moment to moment -/

/-- Where no function has a loop, there is still none after code without loops has been run. -/
lemma simulatesWithin_loopFree (fuel : Nat) :
    Simulation.SimulatesWithin Stmt.LoopFree
      (fun (_ : ScopeId) (i i' : Interpreter σ) => SelfMadeOf Stmt.LoopFree i i') fuel fuel :=
  (simulation_self Stmt.LoopFree.inside).simulatesWithin (Nat.le_refl fuel)

omit [Host σ] in
/-- A loop is not taken up. -/
lemma Moment.LoopFree.ne_loop {m : Moment σ} (hm : m.LoopFree) (condition : Condition)
    (body : List Stmt) : m.job ≠ .statement (.loop condition body) := by
  intro hjob
  have hcode : Stmt.loop condition body ∈ m.job.code := by
    rw [hjob]
    exact List.mem_singleton_self _
  exact hm.job _ hcode .here

/-- What the job of the next moment runs is part of the job or of a function. -/
lemma Enters.code_loopFree {m n : Moment σ} (h : Enters m n) (hm : m.LoopFree) :
    ∀ s ∈ n.job.code, s.LoopFree := by
  cases h with
  | operand _ _ => exact fun s hs => absurd hs List.not_mem_nil
  | callee _ _ => exact fun s hs => absurd hs List.not_mem_nil
  | body hdecl _ => exact hm.functions.of_function? hdecl
  | first =>
    intro t ht
    obtain rfl := List.mem_singleton.mp ht
    exact hm.job _ List.mem_cons_self
  | later _ => exact fun t ht => hm.job t (List.mem_cons_of_mem _ ht)
  | @branch _ condition thenBody elseBody _ _ _ value _ =>
    have hinside := (hm.job _ (List.mem_singleton_self _)).inside
    intro t ht
    by_cases hvalue : value.isTruthy = true
    · exact hinside thenBody (by simp [Stmt.childBlocks]) t (by simpa [Job.code, hvalue] using ht)
    · exact hinside elseBody (by simp [Stmt.childBlocks]) t (by simpa [Job.code, hvalue] using ht)
  | select _ =>
    intro t ht
    obtain ⟨block, hblock, hbody⟩ := List.mem_flatMap.mp ht
    exact (hm.job _ (List.mem_singleton_self _)).inside block.body (List.mem_map_of_mem hblock) t
      hbody
  | caseValue => exact fun s hs => absurd hs List.not_mem_nil
  | caseBody _ _ => exact fun t ht => hm.job t (List.mem_flatMap.mpr ⟨_, List.mem_cons_self, ht⟩)
  | nextCase _ _ =>
    intro t ht
    obtain ⟨block, hblock, hbody⟩ := List.mem_flatMap.mp ht
    exact hm.job t (List.mem_flatMap.mpr ⟨block, List.mem_cons_of_mem _ hblock, hbody⟩)
  | round _ _ => exact absurd rfl (hm.ne_loop _ _)
  | again _ _ _ => exact absurd rfl (hm.ne_loop _ _)

/-- **No loop comes from code without loops**, neither from the job nor through a function that is
registered on the way. -/
lemma Enters.loopFree {m n : Moment σ} (h : Enters m n) (hm : m.LoopFree) : n.LoopFree := by
  refine ⟨h.code_loopFree hm, ?_⟩
  have hevaluate : ∀ (fuel : Nat) (scope : ScopeId) (e : Expr),
      Simulated (SelfMadeOf Stmt.LoopFree) (evaluate fuel scope e : Eval σ Value)
        (evaluate fuel scope e) :=
    fun fuel => (simulatesWithin_loopFree fuel).evaluate
  cases h with
  | operand _ hearlier =>
    exact everyFunction_of_simulated (simulated_valuesOf (hevaluate _ _) _) hm.functions hearlier
      trivial
  | callee _ hvalues =>
    exact everyFunction_of_simulated (simulated_valuesOf (hevaluate _ _) _) hm.functions hvalues
      trivial
  | body _ _ => exact Interpreter.everyFunction_enter hm.functions _ _
  | first => exact hm.functions
  | later hfirst =>
    have hs := hm.job _ List.mem_cons_self
    exact everyFunction_of_simulated ((simulatesWithin_loopFree _).execute _ _ hs) hm.functions
      hfirst trivial
  | branch hcondition =>
    exact everyFunction_of_simulated (simulated_conditionValue (hevaluate _ _) _) hm.functions
      hcondition trivial
  | select hselector =>
    exact everyFunction_of_simulated (hevaluate _ _ _) hm.functions hselector trivial
  | caseValue => exact hm.functions
  | caseBody hvalue _ =>
    exact everyFunction_of_simulated (hevaluate _ _ _) hm.functions hvalue trivial
  | nextCase hvalue _ =>
    exact everyFunction_of_simulated (hevaluate _ _ _) hm.functions hvalue trivial
  | round _ _ => exact absurd rfl (hm.ne_loop _ _)
  | again _ _ _ => exact absurd rfl (hm.ne_loop _ _)

/-! ## What gets smaller -/

/-- How many more calls can be opened inside each other. -/
def Interpreter.callsLeft (i : Interpreter σ) : Nat :=
  i.limit - i.callDepth

/-- The size of the code of a job that is not in a function. -/
noncomputable def Job.size : Job → Nat
  | expression e => sizeOf e
  | condition guard => sizeOf guard
  | call _ _ => 0
  | statement s => sizeOf s
  | block statements => sizeOf statements
  | choose _ cases => sizeOf cases

/-- Moments inside a moment can open at most as many calls. -/
lemma Enters.callsLeft_le {m n : Moment σ} (h : Enters m n) :
    n.state.callsLeft ≤ m.state.callsLeft := by
  unfold Interpreter.callsLeft
  rcases h.evolves_or_enter with ⟨-, hrun⟩ | ⟨-, -, params, args, henter⟩
  · obtain ⟨-, hdepth, hlimit⟩ := hrun.balanced
    exact Nat.le_of_eq (by rw [hdepth, hlimit])
  · rw [henter, Interpreter.callDepth_enter, Interpreter.limit_enter]
    omega

omit [Host σ] in
/-- Operands are smaller than the job. -/
lemma Job.sizeOf_lt_of_mem_operands {job : Job} {e : Expr} (he : e ∈ job.operands) :
    sizeOf e < job.size := by
  cases job with
  | expression e' =>
    cases e' with
    | call name args =>
      have hlt : sizeOf e < sizeOf args := List.sizeOf_lt_of_mem he
      simp only [Job.size, Expr.call.sizeOf_spec]
      omega
    | binary left op right =>
      have hlt : sizeOf e < sizeOf (Condition.mk left op right) :=
        Condition.sizeOf_lt_of_mem_operands he
      simp only [Condition.mk.sizeOf_spec] at hlt
      simp only [Job.size, Expr.binary.sizeOf_spec]
      omega
    | _ => exact absurd he List.not_mem_nil
  | condition guard => exact Condition.sizeOf_lt_of_mem_operands he
  | statement s =>
    simp only [Job.size]
    cases s with
    | assign name value =>
      obtain rfl := List.mem_singleton.mp he
      simp only [Stmt.assign.sizeOf_spec]
      omega
    | call name args =>
      have hlt : sizeOf e < sizeOf args := List.sizeOf_lt_of_mem he
      simp only [Stmt.call.sizeOf_spec]
      omega
    | branch guard thenBody elseBody =>
      have hlt := Condition.sizeOf_lt_of_mem_operands he
      simp only [Stmt.branch.sizeOf_spec]
      omega
    | select selector cases =>
      obtain rfl := List.mem_singleton.mp he
      simp only [Stmt.select.sizeOf_spec]
      omega
    | loop guard body =>
      have hlt := Condition.sizeOf_lt_of_mem_operands he
      simp only [Stmt.loop.sizeOf_spec]
      omega
    | ret value =>
      obtain rfl : value = some e := by simpa [Job.operands, Stmt.operands] using he
      simp only [Stmt.ret.sizeOf_spec, Option.some.sizeOf_spec]
      omega
    | _ => exact absurd he List.not_mem_nil
  | _ => exact absurd he List.not_mem_nil

omit [Host σ] in
/-- A job that calls a function is not empty. -/
lemma Job.size_pos_of_callee? {job : Job} {name : String} (h : job.callee? = some name) :
    0 < job.size := by
  cases job with
  | expression e =>
    cases e with
    | call name args =>
      simp only [Job.size, Expr.call.sizeOf_spec]
      omega
    | _ => cases h
  | statement s =>
    cases s with
    | call name args =>
      simp only [Job.size, Stmt.call.sizeOf_spec]
      omega
    | _ => cases h
  | _ => cases h

/-- From a moment to one inside it the code gets smaller, unless a call begins. -/
lemma Enters.size_lt_or_callsLeft_lt {m n : Moment σ} (h : Enters m n) (hm : m.LoopFree) :
    n.job.size < m.job.size ∨ n.state.callsLeft < m.state.callsLeft := by
  cases h with
  | operand hoperands _ => exact .inl (Job.sizeOf_lt_of_mem_operands (by simp [hoperands]))
  | callee hname _ => exact .inl (Job.size_pos_of_callee? hname)
  | body _ hdepth =>
    right
    simp only [Interpreter.callsLeft, Interpreter.limit_enter, Interpreter.callDepth_enter]
    omega
  | first =>
    left
    simp only [Job.size, List.cons.sizeOf_spec]
    omega
  | later _ =>
    left
    simp only [Job.size, List.cons.sizeOf_spec]
    omega
  | branch _ =>
    left
    simp only [Job.size, Stmt.branch.sizeOf_spec]
    split
    · omega
    · omega
  | select _ =>
    left
    simp only [Job.size, Stmt.select.sizeOf_spec]
    omega
  | @caseValue _ _ block _ _ =>
    left
    obtain ⟨value, body⟩ := block
    simp only [Job.size, List.cons.sizeOf_spec, CaseBlock.mk.sizeOf_spec]
    omega
  | @caseBody _ _ _ block _ _ _ _ _ _ =>
    left
    obtain ⟨value, body⟩ := block
    simp only [Job.size, List.cons.sizeOf_spec, CaseBlock.mk.sizeOf_spec]
    omega
  | nextCase _ _ =>
    left
    simp only [Job.size, List.cons.sizeOf_spec]
    omega
  | round _ _ => exact absurd rfl (hm.ne_loop _ _)
  | again _ _ _ => exact absurd rfl (hm.ne_loop _ _)

/-- **Without loops, all ways inwards go down**: fewer calls can be opened, or as many, and the code
is smaller. -/
lemma Enters.descends {m n : Moment σ} (h : Enters m n) (hm : m.LoopFree) :
    Prod.Lex (· < ·) (· < ·) (n.state.callsLeft, n.job.size) (m.state.callsLeft, m.job.size) := by
  rcases Nat.lt_or_eq_of_le h.callsLeft_le with hlt | heq
  · exact .left _ _ hlt
  · rw [heq]
    refine .right _ ((h.size_lt_or_callsLeft_lt hm).resolve_right ?_)
    omega

/-- **Without loops, all ways inwards are finite.** -/
theorem Moment.LoopFree.acc {m : Moment σ} (hm : m.LoopFree) : Acc (fun n m => Enters m n) m :=
  .intro m fun _ hn => (hn.loopFree hm).acc
termination_by (m.state.callsLeft, m.job.size)
decreasing_by exact hn.descends hm

/-! ## Scripts and requests -/

/-- As long as no function has a loop, all calls from outside end, one after the other. -/
lemma Interpreter.exists_serves (requests : List (String × List Value)) {i : Interpreter σ}
    (hi : i.scopes.EveryFunction (FunctionDecl.MadeOf Stmt.LoopFree)) :
    ∃ j, i.Serves requests j := by
  induction requests generalizing i with
  | nil => exact ⟨i, .nil⟩
  | cons request later ih =>
    obtain ⟨name, args⟩ := request
    have hfree : (Moment.mk Scopes.rootId (.call name args) i).LoopFree :=
      ⟨fun _ hs => absurd hs List.not_mem_nil, hi⟩
    obtain ⟨fuel, hends⟩ := (Moment.terminates_of_acc hfree.acc).of_bind
    -- A call only registers functions without loops, so that the later ones end, too.
    have hfunctions := everyFunction_of_simulated
      ((simulatesWithin_loopFree fuel).callFunction Scopes.rootId name args) hi rfl hends
    obtain ⟨k, hlater⟩ := ih hfunctions
    exact ⟨k, .cons rfl hends hlater⟩

/-- **Only loops can go on forever.** Let there be no loop in a script, at any depth. Run in a fresh
interpreter, over any host, with any limit and any variables of the whole program, it ends. So does
every call that the outside world makes afterwards, in any sequence of them, whatever the functions
call and declare.

**Proof sketch.** All ways inwards are finite (`Moment.LoopFree.acc`), so that the script and each
call end (`Moment.terminates_of_acc`); and the functions that they register have no loops. -/
theorem runScript_terminates {script : Script} (hscript : ∀ s ∈ script.statements, s.LoopFree)
    (host : σ) (limit : Nat) (globals : List (String × Value)) :
    ∃ (fuel : Nat) (outcome : Outcome Unit) (i : Interpreter σ),
      runScript fuel script (Interpreter.fresh host limit globals) = (outcome, i) ∧
        outcome.Ends ∧ ∀ requests, ∃ j, i.Serves requests j := by
  have hfresh : (Interpreter.fresh host limit globals).scopes.EveryFunction
      (FunctionDecl.MadeOf Stmt.LoopFree) := Interpreter.everyFunction_fresh host limit globals
  have hfree : (Moment.mk Scopes.rootId (.block script.statements)
      (Interpreter.fresh host limit globals)).LoopFree := ⟨hscript, hfresh⟩
  obtain ⟨fuel, hends⟩ := Moment.terminates_of_acc hfree.acc
  have hsimulated : Simulated (SelfMadeOf Stmt.LoopFree) (runScript fuel script : Eval σ Unit)
      (runScript fuel script) :=
    Simulated.bind (simulated_runAll fun s hs =>
      (simulatesWithin_loopFree fuel).execute Scopes.rootId s (hscript s hs)) fun _ =>
        simulated_pure _
  have hfunctions := everyFunction_of_simulated hsimulated hfresh rfl hends
  exact ⟨fuel, _, _, rfl, hends, fun requests => Interpreter.exists_serves requests hfunctions⟩

/-- A function that declares itself anew, to call itself in the argument of a call of itself, and
does the same at once. -/
def selfCalling : Script :=
  ⟨"self", [.declare "f" ["x"]
    [.declare "f" ["x"] [.call "f" [.call "f" [.var "x"]]], .call "f" [.call "f" [.var "x"]]],
    .call "f" [.number "1"]], []⟩

/-- With the greatest limit such a script ends, although it can open more calls than could ever be
counted out. -/
theorem runScript_terminates_selfCalling :
    (∀ s ∈ selfCalling.statements, s.LoopFree) ∧
      ∃ (fuel : Nat) (outcome : Outcome Unit) (i : Interpreter BufferHost),
        runScript fuel selfCalling (Interpreter.fresh (.withAnswers []) 1024 []) = (outcome, i) ∧
          outcome.Ends ∧ ∀ requests, ∃ j, i.Serves requests j := by
  have hcall : ∀ name args, (Stmt.call name args).LoopFree := fun name args =>
    .of_inside (by simp) (by simp [Stmt.childBlocks])
  have hinner : (Stmt.declare "f" ["x"] [.call "f" [.call "f" [.var "x"]]]).LoopFree :=
    .of_inside (by simp) (by simp [Stmt.childBlocks, hcall])
  have hfree : ∀ s ∈ selfCalling.statements, s.LoopFree := by
    simp only [selfCalling, List.forall_mem_cons]
    exact ⟨.of_inside (by simp) (by simp [Stmt.childBlocks, hcall, hinner]), hcall _ _, by simp⟩
  exact ⟨hfree, runScript_terminates hfree _ _ _⟩

end DialogueScript
