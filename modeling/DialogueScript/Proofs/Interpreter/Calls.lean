import DialogueScript.Proofs.Interpreter.Moment

set_option autoImplicit false

/-!
# Calls and frames

Every call has a frame of its own, and the two are kept in step on all ways out of a call: its end,
a `return`, and an exit from any depth. So there are always as many frames besides the root as there
are open calls, and never more than the limit. A call beyond the limit does nothing but report.

A run writes the root and its own frame. What the functions that it calls write besides the root is
gone when they return, so that a function never changes the variables of its caller.

## Main definitions

* `DialogueScript.Flow.result` — the result of a call whose body ends in some way.

## Main results

* `DialogueScript.callFunction_of_lt`, `DialogueScript.callFunction_of_ge` — calls of declared
  functions, within the limit and beyond it.
* `DialogueScript.calls_balanced` — calls are balanced, and their depth is bounded throughout.
* `DialogueScript.only_own_frame_written` — runs write no other frame than the root and their own.
-/

namespace DialogueScript

open Eval

/-! ## Calls of declared functions -/

/-- The result of a call whose body ends in the given way. -/
def Flow.result : Flow → Value
  | .normal => .nil
  | .returned value => value

/-- An outcome with its result changed. -/
def Outcome.map {α β : Type} (f : α → β) : Outcome α → Outcome β
  | .done a => .done (f a)
  | .exitRequested => .exitRequested
  | .outOfFuel => .outOfFuel

variable {σ : Type} [Host σ] {scope : ScopeId} {i j : Interpreter σ} {name : String}
  {decl : FunctionDecl}

omit [Host σ] in
/-- A call ends as its body does in the new frame, and the frame is popped. -/
lemma Eval.inCall_of_body {α : Type} {params : List String} {args : List Value}
    {body : ScopeId → Eval σ α} {outcome : Outcome α}
    (hbody : body i.scopes.depth (i.enter params args) = (outcome, j)) :
    inCall params args body i = (outcome, j.leave) := by
  simp only [inCall, hbody]

/-- A name that is found is called as the function it stands for. -/
lemma callFunction_of_function? (fuel : Nat) (args : List Value)
    (hdecl : i.scopes.function? scope name = some decl) :
    callFunction (fuel + 1) scope name args i =
      callDeclared (fun inner s => execute fuel inner s) decl args i := by
  simp only [callFunction, bind, look, hdecl]

/-- **A call within the limit** runs the body in the frame that it pushes, and pops the newest frame
however the body ends. -/
lemma callFunction_of_lt {fuel : Nat} {args : List Value} {outcome : Outcome Flow}
    (hdecl : i.scopes.function? scope name = some decl) (hdepth : i.callDepth < i.limit)
    (hbody : runStatements fuel i.scopes.depth decl.body (i.enter decl.params args) =
      (outcome, j)) :
    callFunction (fuel + 1) scope name args i = (outcome.map Flow.result, j.leave) := by
  have hcall : callDeclared (fun inner s => execute fuel inner s) decl args i =
      (inCall decl.params args (fun inner => runStatements fuel inner decl.body) >>=
        fun flow => match flow with
          | .normal => pure .nil
          | .returned value => pure value) i :=
    congrFun (if_neg (Nat.not_le_of_lt hdepth)) i
  have hinner : inCall decl.params args (fun inner => runStatements fuel inner decl.body) i =
      (outcome, j.leave) := inCall_of_body hbody
  rw [callFunction_of_function? fuel args hdecl, hcall]
  rcases outcome with (_ | value) | _ | _
  · exact bind_of_done hinner
  · exact bind_of_done hinner
  · exact bind_of_exitRequested hinner
  · exact bind_of_outOfFuel hinner

/-- **A call beyond the limit** is reported and does nothing else. -/
lemma callFunction_of_ge (fuel : Nat) (args : List Value)
    (hdecl : i.scopes.function? scope name = some decl) (hdepth : i.limit ≤ i.callDepth) :
    callFunction (fuel + 1) scope name args i =
      (.done .nil,
        { i with errors := i.errors ++ [.callDepthExceeded decl.name i.limit] }) := by
  rw [callFunction_of_function? fuel args hdecl]
  exact congrFun (if_pos hdepth) i

/-- A call beyond the limit leads nowhere. -/
lemma not_enters_of_ge {args : List Value} (hdepth : i.limit ≤ i.callDepth) (n : Moment σ) :
    ¬ Enters ⟨scope, .call name args, i⟩ n := by
  intro h
  cases h with
  | operand hoperands _ => simp [Job.operands] at hoperands
  | callee hname _ => simp [Job.callee?] at hname
  | body _ hlt => omega

/-! ## Balance -/

/-- **Calls are balanced, and their depth is bounded.** At every reachable moment there is a frame
for each open call besides the root, and there are at most as many open calls as the limit allows,
which is at most 1024.

Whatever is run there, in whatever scope and however it ends, leaves as many frames and open calls
as there were.

A call of a declared function pushes the frame whose number is the depth before; when the body ends,
that frame is the newest, and it is the one that is popped. If the limit is reached, then nothing of
the function is run; there is one report, and the result is `nil`.

**Proof sketch.** The bounds are an invariant of runs (`Moment.Reachable.nested`). The balance holds
of everything that a run can do (`Evolves.balanced`), also of the body of a call. -/
theorem calls_balanced {m : Moment σ} (hm : m.Reachable) :
    (m.state.scopes.depth = m.state.callDepth + 1 ∧ m.state.callDepth ≤ m.state.limit ∧
      m.state.limit ≤ 1024) ∧
    (∀ (job : Job) (scope : ScopeId) (fuel : Nat) (outcome : Outcome Unit) (j : Interpreter σ),
      job.run fuel scope m.state = (outcome, j) →
        j.scopes.depth = m.state.scopes.depth ∧ j.callDepth = m.state.callDepth) ∧
    ∀ (scope : ScopeId) (name : String) (args : List Value) (decl : FunctionDecl),
      m.state.scopes.function? scope name = some decl →
        (m.state.callDepth < m.state.limit →
          ∀ (fuel : Nat) (outcome : Outcome Flow) (j : Interpreter σ),
            runStatements fuel m.state.scopes.depth decl.body
                (m.state.enter decl.params args) = (outcome, j) →
              j.scopes.depth = m.state.scopes.depth + 1 ∧
                callFunction (fuel + 1) scope name args m.state =
                  (outcome.map Flow.result, j.leave)) ∧
        (m.state.callDepth = m.state.limit →
          (∀ n, ¬ Enters ⟨scope, .call name args, m.state⟩ n) ∧
            ∀ fuel, callFunction (fuel + 1) scope name args m.state =
              (.done .nil, { m.state with
                errors := m.state.errors ++
                  [.callDepthExceeded decl.name m.state.limit] })) := by
  have hnested := hm.nested
  refine ⟨⟨?_, hnested.callDepth_le, hnested.limit_le⟩, ?_, ?_⟩
  · rw [Scopes.depth, hnested.size_inner]
  · intro job scope fuel outcome j hrun
    obtain ⟨hsize, hdepth, -⟩ := ((job.runs fuel).evolves_any hrun).balanced
    exact ⟨congrArg (· + 1) hsize, hdepth⟩
  · intro scope name args decl hdecl
    constructor
    · intro hdepth fuel outcome j hbody
      have hsize := ((runs_runStatements_any fuel decl.body).evolves_any hbody).balanced.1
      rw [Interpreter.size_inner_enter] at hsize
      exact ⟨congrArg (· + 1) hsize, callFunction_of_lt hdecl hdepth hbody⟩
    · intro hdepth
      have hge : m.state.limit ≤ m.state.callDepth := Nat.le_of_eq hdepth.symm
      exact ⟨not_enters_of_ge hge, fun fuel => callFunction_of_ge fuel args hdecl hge⟩

/-- `f` and `g` call each other, and `g` exits in the end. -/
def mutualFunctions : List FunctionDecl :=
  [⟨"f", [], [.call "g" []]⟩, ⟨"g", [], [.call "f" [], .exitCode]⟩]

/-- With a limit of two, `f` calls `g`, and `g` calls `f` again and then exits. At the moment of the
second call of `f` there are three frames and two open calls; the call only reports, and the exit
leaves no frame behind. -/
theorem calls_balanced_at_limit :
    ∃ (i j : Interpreter BufferHost) (m : Moment BufferHost),
      i.Idle ∧ (Job.call "f" []).run 9 Scopes.rootId i = (.exitRequested, j) ∧
        j.scopes.depth = 1 ∧ j.callDepth = 0 ∧
        Visits ⟨Scopes.rootId, .call "f" [], i⟩ m ∧ m.job = .call "f" [] ∧
        m.state.scopes.depth = 3 ∧ m.state.callDepth = 2 ∧ m.state.limit = 2 ∧
        (∀ n, ¬ Enters ⟨m.scope, .call "f" [], m.state⟩ n) ∧
        ∀ fuel, callFunction (fuel + 1) m.scope "f" [] m.state =
          (.done .nil, { m.state with errors := [.callDepthExceeded "f" 2] }) := by
  have hidle := Interpreter.idle_declaring 2 mutualFunctions
  have hdeclF : (Interpreter.declaring 2 mutualFunctions).scopes.function? Scopes.rootId "f" =
      some ⟨"f", [], [.call "g" []]⟩ := rfl
  have hdeclG : ((Interpreter.declaring 2 mutualFunctions).enter [] []).scopes.function? 1 "g" =
      some ⟨"g", [], [.call "f" [], .exitCode]⟩ := rfl
  have hcallG : Visits ⟨Scopes.rootId, .call "f" [], Interpreter.declaring 2 mutualFunctions⟩
      ⟨1, .call "g" [], (Interpreter.declaring 2 mutualFunctions).enter [] []⟩ :=
    .tail (.tail (.single (.body hdeclF (by decide))) .first)
      (.callee rfl (rfl : valuesOf (evaluate 0 1) [] _ = _))
  have hcallF : Visits ⟨Scopes.rootId, .call "f" [], Interpreter.declaring 2 mutualFunctions⟩
      ⟨2, .call "f" [], ((Interpreter.declaring 2 mutualFunctions).enter [] []).enter [] []⟩ :=
    .tail (.tail (.tail hcallG (.body hdeclG (by decide))) .first)
      (.callee rfl (rfl : valuesOf (evaluate 0 2) [] _ = _))
  obtain ⟨j, hrun⟩ : ∃ j, (Job.call "f" []).run 9 Scopes.rootId
      (Interpreter.declaring 2 mutualFunctions) = (.exitRequested, j) := ⟨_, rfl⟩
  obtain ⟨hdepth, hcalls⟩ := (calls_balanced ⟨_, .call "f" [], hidle, .refl⟩).2.1 _ _ _ _ _ hrun
  have hbound := calls_balanced ⟨_, _, hidle, hcallF⟩
  obtain ⟨hnone, hreport⟩ := (hbound.2.2 2 "f" [] ⟨"f", [], [.call "g" []]⟩ rfl).2 rfl
  exact ⟨_, j, _, hidle, hrun, hdepth, hcalls, hcallF, rfl, hbound.1.1, rfl, rfl, hnone, hreport⟩

/-! ## Confinement -/

/-- **Runs write the root and their own frame only.** Take any job in any scope of an interpreter at
a reachable moment, and let its run end in whatever way. The frames other than the root and that of
the scope are then what they were, with all their variables and functions and their parents. At no
moment inside the run, nor at its end, does a frame but the root hold a function. If the job is a
call, then the frame of its scope is what it was, too: a function does not change the variables of
its caller.

**Proof sketch.** Frames of others are kept by everything that a run can do
(`Evolves.getElem?_inner`), and that functions are in the root only is an invariant
(`Moment.Reachable.functionsInRoot`, `Visits.invariant`). A call does only what a run in the root
can do (`runs_callFunction_root`), and the root has no frame above it to write. -/
theorem only_own_frame_written {m : Moment σ} (hm : m.Reachable) {job : Job} {scope : ScopeId}
    {fuel : Nat} {outcome : Outcome Unit} {j : Interpreter σ}
    (hrun : job.run fuel scope m.state = (outcome, j)) :
    (∀ k, k + 1 ≠ scope → j.scopes.inner[k]? = m.state.scopes.inner[k]?) ∧
      (∀ n, Visits ⟨scope, job, m.state⟩ n → n.state.scopes.FunctionsInRoot) ∧
      j.scopes.FunctionsInRoot ∧
      ∀ name args, job = .call name args → j.scopes.inner = m.state.scopes.inner := by
  have hevolves := (job.runs fuel).evolves_any hrun
  refine ⟨hevolves.getElem?_inner, ?_, hevolves.functionsInRoot hm.functionsInRoot, ?_⟩
  · intro n hvisits
    exact hvisits.invariant (P := fun i => i.scopes.FunctionsInRoot) Evolves.functionsInRoot
      (fun params args _ hi => Interpreter.functionsInRoot_enter _ params args hi)
      hm.functionsInRoot
  · rintro name args rfl
    have hcall : Runs (fun _ => True) Scopes.rootId
        ((Job.call name args).run fuel scope : Eval σ Unit) :=
      (runs_callFunction_root fuel trivial args).bind fun _ => runs_pure _
    apply Array.ext_getElem?
    intro k
    exact (hcall.evolves_any hrun).getElem?_inner k (Nat.succ_ne_zero k)

/-- The body of `f` calls `g`, which writes all that it can. -/
def writingFunctions : List FunctionDecl :=
  [⟨"f", ["x"], [.call "g" []]⟩,
    ⟨"g", [], [.locals ["x"], .assign "x" (.number "5"), .declare "h" [] [], .globals ["y"],
      .exitCode]⟩]

/-- In the body of `f`, whose parameter `x` is seven, `g` is called. It has a local variable `x` of
its own, declares `h`, binds a variable of the whole program and exits; the frame of `f` is what it
was. -/
theorem only_own_frame_written_caller :
    ∃ (m : Moment BufferHost) (j : Interpreter BufferHost), m.Reachable ∧
      m.state.scopes.lookup 1 "x" = .integer 7 ∧
      (Job.call "g" []).run 9 1 m.state = (.exitRequested, j) ∧
      j.scopes.global? "y" = some .nil ∧ j.scopes.Registered "h" ∧
      j.scopes.inner = m.state.scopes.inner ∧ j.scopes.FunctionsInRoot := by
  have hdecl : (Interpreter.declaring 2 writingFunctions).scopes.function? Scopes.rootId "f" =
      some ⟨"f", ["x"], [.call "g" []]⟩ := rfl
  have hm : (Moment.mk 1 (.block [.call "g" []])
      ((Interpreter.declaring 2 writingFunctions).enter ["x"] [.integer 7])).Reachable :=
    ⟨_, .call "f" [.integer 7], Interpreter.idle_declaring 2 writingFunctions,
      .single (.body hdecl (by decide))⟩
  obtain ⟨j, hrun, hglobal, hregistered⟩ : ∃ j, (Job.call "g" []).run 9 1
      ((Interpreter.declaring 2 writingFunctions).enter ["x"] [.integer 7]) =
        (.exitRequested, j) ∧ j.scopes.global? "y" = some .nil ∧ j.scopes.Registered "h" :=
    ⟨_, rfl, rfl, rfl⟩
  obtain ⟨-, -, hfunctions, hframes⟩ := only_own_frame_written hm hrun
  exact ⟨_, j, hm, rfl, hrun, hglobal, hregistered, hframes "g" [] rfl, hfunctions⟩

end DialogueScript
