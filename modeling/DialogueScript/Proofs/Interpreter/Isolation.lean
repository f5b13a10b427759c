import DialogueScript.Proofs.Interpreter.Simulation
import DialogueScript.Proofs.Scope.Agreement

set_option autoImplicit false

/-!
# What a function can see

A function sees its own variables and what the whole program shares, and nothing of its caller. Two
interpreters that only differ in the frames below a call are therefore told apart by nothing that
the call does: it ends in both or in neither, with the same result, the same reports, the same
dealings with the host, and the same root.

## Main definitions

* `DialogueScript.Interpreter.AgreeFrom` — interpreters that only differ in frames below a number.
* `DialogueScript.Interpreter.AlikeAtRoot` — interpreters that only differ in frames over the root.

## Main results

* `DialogueScript.simulation_agreeFrom` — runs keep the agreement.
* `DialogueScript.callFunction_eq_root` — at reachable moments the scope of a call does not matter.
* `DialogueScript.callFunction_isolated` — a call does not depend on the variables of its callers.
-/

namespace DialogueScript

open Eval

variable {σ : Type}

/-! ## Agreement of interpreters -/

/-- The interpreters differ at most in the frames below a number, and the scope is not among
them. -/
structure Interpreter.AgreeFrom (base : Nat) (scope : ScopeId) (i i' : Interpreter σ) : Prop where
  /-- The scopes agree. -/
  scopes : i.scopes.AgreeFrom base i'.scopes
  /-- The frames below are there. -/
  base_le : base ≤ i.scopes.inner.size
  /-- The scope is the root or a frame on which the interpreters agree. -/
  scope : scope = Scopes.rootId ∨ base < scope
  /-- The hosts are the same. -/
  host : i'.host = i.host
  /-- The reports are the same. -/
  errors : i'.errors = i.errors
  /-- As many calls are open. -/
  callDepth : i'.callDepth = i.callDepth
  /-- The limits are the same. -/
  limit : i'.limit = i.limit

namespace Interpreter.AgreeFrom

variable {base : Nat} {scope : ScopeId} {i i' : Interpreter σ}

/-- A change of the scopes that keeps their agreement and the number of frames. -/
lemma withScopes (h : AgreeFrom base scope i i') {a b : Scopes} (hab : a.AgreeFrom base b)
    (hsize : a.inner.size = i.scopes.inner.size) :
    AgreeFrom base scope { i with scopes := a } { i' with scopes := b } :=
  ⟨hab, hsize ▸ h.base_le, h.scope, h.host, h.errors, h.callDepth, h.limit⟩

/-- Scopes that agree still agree when the parameters of a call are bound in both. -/
lemma bindParameters {a b : Scopes} (h : a.AgreeFrom base b) (id : ScopeId)
    (params : List String) (args : List Value) :
    (Interpreter.bindParameters a id params args).AgreeFrom base
      (Interpreter.bindParameters b id params args) := by
  induction params generalizing a b args with
  | nil => exact h
  | cons param params ih =>
    cases args with
    | nil => exact ih (h.define id param .nil) []
    | cons arg args => exact ih (h.define id param arg) args

/-- Interpreters that agree still agree inside a call, from the point of view of its frame. -/
lemma enter (h : AgreeFrom base scope i i') (params : List String) (args : List Value) :
    AgreeFrom base i.scopes.depth (i.enter params args) (i'.enter params args) := by
  have hdepth : i'.scopes.depth = i.scopes.depth := congrArg (· + 1) h.scopes.size.symm
  refine ⟨?_, ?_, .inr (Nat.lt_succ_of_le h.base_le), h.host, h.errors, ?_, h.limit⟩
  · rw [Interpreter.enter, Interpreter.enter, hdepth]
    exact bindParameters h.scopes.push _ params args
  · rw [size_inner_enter]
    exact Nat.le_succ_of_le h.base_le
  · rw [callDepth_enter, callDepth_enter, h.callDepth]

/-- The end of a call whose body has begun in agreement and ends in agreement. -/
lemma leave {s : ScopeId} {j j' : Interpreter σ} (h : AgreeFrom base scope i i')
    (hj : AgreeFrom base s j j') (hsize : j.leave.scopes.inner.size = i.scopes.inner.size) :
    AgreeFrom base scope j.leave j'.leave :=
  ⟨hj.scopes.pop, hsize ▸ h.base_le, h.scope, hj.host, hj.errors,
    by rw [callDepth_leave, callDepth_leave, hj.callDepth], hj.limit⟩

end Interpreter.AgreeFrom

variable [Host σ]

/-- **Runs keep the agreement**: no run reads or writes a frame below that of its scope, except the
root. -/
lemma simulation_agreeFrom (base : Nat) :
    Simulation (fun _ => True) (Interpreter.AgreeFrom (σ := σ) base) where
  inside := fun _ _ _ _ _ => trivial
  lookup := fun hi name => (hi.scopes.lookup_eq hi.scope name).symm
  global? := fun hi name => (hi.scopes.root.vars name).symm
  function? := fun hi name => (hi.scopes.function?_eq hi.scope name).symm
  code := fun _ _ _ _ _ _ => trivial
  calls := fun hi => ⟨hi.callDepth, hi.limit, congrArg (· + 1) hi.scopes.size.symm⟩
  answer := fun hi => by
    rw [hi.host]
    exact ⟨rfl, hi.scopes, hi.base_le, hi.scope, rfl, hi.errors, hi.callDepth, hi.limit⟩
  command := fun hi command => by
    rw [hi.host]
    exact ⟨hi.scopes, hi.base_le, hi.scope, rfl, hi.errors, hi.callDepth, hi.limit⟩
  report := fun hi error => by
    rw [hi.errors]
    exact ⟨hi.scopes, hi.base_le, hi.scope, hi.host, rfl, hi.callDepth, hi.limit⟩
  define := fun hi _ name value =>
    hi.withScopes (hi.scopes.define _ name value) (Scopes.size_inner_modify _ _ _)
  declare := fun hi _ name value =>
    hi.withScopes (hi.scopes.modify _ fun _ _ hsame => hsame.declare name value)
      (Scopes.size_inner_modify _ _ _)
  register := fun hi decl _ =>
    hi.withScopes (hi.scopes.modify _ fun _ _ hsame => hsame.defineFunction decl)
      (Scopes.size_inner_modify _ _ _)
  enter := fun hi _ params args => hi.enter params args
  leave := fun hi hevolves hj => hi.leave hj (congrArg Array.size hevolves.inner_leave)

/-! ## Calls from different callers -/

/-- Everything is the same in both interpreters but the frames over the root, which may hold
anything. -/
structure Interpreter.AlikeAtRoot (i i' : Interpreter σ) : Prop where
  /-- The roots bind the same variables and functions. -/
  root : i.scopes.root.Same i'.scopes.root
  /-- The hosts are the same. -/
  host : i'.host = i.host
  /-- The reports are the same. -/
  errors : i'.errors = i.errors
  /-- As many calls are open. -/
  callDepth : i'.callDepth = i.callDepth
  /-- The limits are the same. -/
  limit : i'.limit = i.limit

namespace Interpreter.AlikeAtRoot

variable {i i' : Interpreter σ}

omit [Host σ] in
/-- To be alike at the root does not depend on the order of the interpreters. -/
lemma symm (h : i.AlikeAtRoot i') : i'.AlikeAtRoot i :=
  ⟨h.root.symm, h.host.symm, h.errors.symm, h.callDepth.symm, h.limit.symm⟩

omit [Host σ] in
/-- Interpreters that agree from some number on are alike at the root. -/
lemma of_agreeFrom {base : Nat} {scope : ScopeId} (h : AgreeFrom base scope i i') :
    i.AlikeAtRoot i' :=
  ⟨h.scopes.root, h.host, h.errors, h.callDepth, h.limit⟩

omit [Host σ] in
/-- It makes no difference with what a call begins. -/
lemma enter (i : Interpreter σ) (params params' : List String) (args args' : List Value) :
    (i.enter params args).AlikeAtRoot (i.enter params' args') := by
  refine ⟨?_, rfl, rfl, rfl, rfl⟩
  rw [root_enter, root_enter]
  exact .refl _

omit [Host σ] in
/-- Seen from the root, such interpreters agree from the first frame on that is not there yet. -/
lemma agreeFrom (h : i.AlikeAtRoot i') (hi : i.Nested) (hi' : i'.Nested) :
    AgreeFrom i.scopes.inner.size Scopes.rootId i i' := by
  have hsize : i.scopes.inner.size = i'.scopes.inner.size := by
    rw [hi.size_inner, hi'.size_inner, h.callDepth]
  refine ⟨⟨h.root, hsize, ?_⟩, Nat.le_refl _, .inl rfl, h.host, h.errors, h.callDepth, h.limit⟩
  intro k x y hk hx hy
  rw [Array.getElem?_eq_none hk] at hx
  cases hx

end Interpreter.AlikeAtRoot

/-- Where only the root holds functions, all scopes call the same. -/
lemma callFunction_eq_root {i : Interpreter σ} (h : i.scopes.FunctionsInRoot) (fuel : Nat)
    (scope : ScopeId) (name : String) (args : List Value) :
    callFunction fuel scope name args i = callFunction fuel Scopes.rootId name args i := by
  cases fuel with
  | zero => rfl
  | succ fuel => simp only [callFunction, bind, look, h.function?_eq]

/-- At reachable moments with the same root, the second call ends as the first one does. -/
lemma endsLike_callFunction {m m' : Moment σ} (hm : m.Reachable) (hm' : m'.Reachable)
    (halike : m.state.AlikeAtRoot m'.state) (scope : ScopeId) (name : String) (args : List Value)
    {fuel fuel' : Nat} (hle : fuel ≤ fuel') :
    EndsLike Interpreter.AlikeAtRoot (callFunction fuel scope name args m.state)
      (callFunction fuel' scope name args m'.state) := by
  rw [callFunction_eq_root hm.functionsInRoot, callFunction_eq_root hm'.functionsInRoot]
  intro hends
  have hagree := halike.agreeFrom hm.nested hm'.nested
  obtain ⟨houtcome, hj⟩ := ((simulation_agreeFrom _).simulatesWithin hle).callFunction
    Scopes.rootId name args _ _ hagree hends
  exact ⟨houtcome, .of_agreeFrom hj⟩

/-- **A call does not depend on the variables of its callers.** Take two reachable moments at which
everything is the same but the frames over the root. A call of any function with any arguments, from
any scope, ends in one of them exactly if it ends in the other; and if so, then it ends with the
same result or with an exit in both, and everything but the frames over the root is the same again.

**Proof sketch.** Both interpreters have as many frames, because as many calls are open
(`Moment.Reachable.nested`), and the scope of the call can be taken to be the root
(`callFunction_eq_root`). The frame of the call and all frames over it are new in both runs and the
same throughout, and nothing else but the root is looked at (`simulation_agreeFrom`). -/
theorem callFunction_isolated {m m' : Moment σ} (hm : m.Reachable) (hm' : m'.Reachable)
    (halike : m.state.AlikeAtRoot m'.state) (scope : ScopeId) (name : String)
    (args : List Value) :
    ((∃ fuel, (callFunction fuel scope name args m.state).1.Ends) ↔
        ∃ fuel, (callFunction fuel scope name args m'.state).1.Ends) ∧
      ∀ (fuel fuel' : Nat) (outcome outcome' : Outcome Value) (j j' : Interpreter σ),
        callFunction fuel scope name args m.state = (outcome, j) → outcome.Ends →
        callFunction fuel' scope name args m'.state = (outcome', j') → outcome'.Ends →
          outcome' = outcome ∧ j.AlikeAtRoot j' := by
  refine ⟨⟨?_, ?_⟩, ?_⟩
  · rintro ⟨fuel, hends⟩
    obtain ⟨houtcome, -⟩ := endsLike_callFunction hm hm' halike scope name args (Nat.le_refl _)
      hends
    exact ⟨fuel, houtcome ▸ hends⟩
  · rintro ⟨fuel, hends⟩
    obtain ⟨houtcome, -⟩ := endsLike_callFunction hm' hm halike.symm scope name args (Nat.le_refl _)
      hends
    exact ⟨fuel, houtcome ▸ hends⟩
  · intro fuel fuel' outcome outcome' j j' hrun hends hrun' hends'
    -- The second run is given the fuel of both.
    have hmore : callFunction (max fuel fuel') scope name args m'.state = (outcome', j') :=
      (steady_callFunction scope name args).eq_of_le (Nat.le_max_right _ _) hrun' hends'
    have hlike := endsLike_callFunction hm hm' halike scope name args (Nat.le_max_left fuel fuel')
    rw [hrun, hmore] at hlike
    exact hlike hends

/-- The body of `f` calls `g`, which looks for the parameter of `f`. -/
def peekingFunctions : List FunctionDecl :=
  [⟨"f", ["x"], [.call "g" []]⟩,
    ⟨"g", [], [.globals ["y"], .assign "y" (.var "x"), .ret (some (.var "x"))]⟩]

/-- In the body of `f`, whose parameter `x` is one or two, `g` is called. It reads `x`, finds
nothing in both cases, and leaves the same root behind. -/
theorem callFunction_isolated_parameter :
    ∃ m m' : Moment BufferHost, m.Reachable ∧ m'.Reachable ∧
      m.state.scopes.lookup 1 "x" = .integer 1 ∧ m'.state.scopes.lookup 1 "x" = .integer 2 ∧
      ∃ j j' : Interpreter BufferHost,
        callFunction 9 1 "g" [] m.state = (.done .nil, j) ∧
        callFunction 9 1 "g" [] m'.state = (.done .nil, j') ∧ j.AlikeAtRoot j' := by
  have hdecl : (Interpreter.declaring 2 peekingFunctions).scopes.function? Scopes.rootId "f" =
      some ⟨"f", ["x"], [.call "g" []]⟩ := rfl
  have hm : ∀ value, (Moment.mk 1 (.block [.call "g" []])
      ((Interpreter.declaring 2 peekingFunctions).enter ["x"] [value])).Reachable := fun value =>
    ⟨_, .call "f" [value], Interpreter.idle_declaring 2 peekingFunctions,
      .single (.body hdecl (by decide))⟩
  have hrun : ∀ value, ∃ j, callFunction 9 1 "g" []
      ((Interpreter.declaring 2 peekingFunctions).enter ["x"] [value]) = (.done .nil, j) :=
    fun _ => ⟨_, rfl⟩
  obtain ⟨j, hj⟩ := hrun (.integer 1)
  obtain ⟨j', hj'⟩ := hrun (.integer 2)
  have hsame := ((callFunction_isolated (hm _) (hm _) (.enter _ _ _ _ _) 1 "g" []).2 _ _ _ _ _ _
    hj trivial hj' trivial).2
  exact ⟨_, _, hm (.integer 1), hm (.integer 2), rfl, rfl, j, j', hj, hj', hsame⟩

end DialogueScript
