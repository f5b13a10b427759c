import DialogueScript.Proofs.Interpreter.Evolution
import DialogueScript.Proofs.Scope.Frames

set_option autoImplicit false

/-!
# Frames of a run

Whatever a run does, it ends with as many frames and as many open calls as it began with, because
every call pops the frame that it pushed. Of the frames that were there before, a run changes only
the root and the frame it runs in; a call does not even change the latter. Functions are registered
in the root and nowhere else.

All of this is read off what a run can do, `DialogueScript.Evolves`.

## Main results

* `DialogueScript.Evolves.balanced` — frames and open calls are as many as before.
* `DialogueScript.Evolves.getElem?_inner` — frames of others are not touched.
* `DialogueScript.Evolves.inner_leave` — after a call all frames but the root are as before it.
* `DialogueScript.Evolves.functionsInRoot` — no frame but the root gets a function.
* `DialogueScript.runs_callFunction_root` — a call writes no frame but the root.
-/

namespace DialogueScript

open Eval

variable {σ : Type} {Called : String → Prop} {scope : ScopeId} {k : Nat}

/-! ## Beginning and ending a call -/

namespace Interpreter

variable (i : Interpreter σ) (params : List String) (args : List Value)

/-- What pushing a frame and binding variables in it keep, beginning a call keeps. -/
lemma enter_own_induction {P : Scopes → Prop} (hpush : P (i.scopes.push Scopes.rootId))
    (hdefine : ∀ scopes name value, P scopes → P (Scopes.define scopes i.scopes.depth name value)) :
    P (i.enter params args).scopes := by
  have hbind : ∀ (params : List String) (args : List Value) (scopes : Scopes), P scopes →
      P (bindParameters scopes i.scopes.depth params args) := by
    intro params
    induction params with
    | nil => exact fun _ _ h => h
    | cons param params ih =>
      intro args scopes h
      cases args with
      | nil => exact ih [] _ (hdefine scopes param .nil h)
      | cons arg args => exact ih args _ (hdefine scopes param arg h)
  exact hbind params args _ hpush

/-- One call more is open in a call. -/
@[simp]
lemma callDepth_enter : (i.enter params args).callDepth = i.callDepth + 1 :=
  rfl

/-- A call does not change the limit. -/
@[simp]
lemma limit_enter : (i.enter params args).limit = i.limit :=
  rfl

/-- A call has a frame over the root that was not there before. -/
@[simp]
lemma size_inner_enter :
    (i.enter params args).scopes.inner.size = i.scopes.inner.size + 1 := by
  apply enter_own_induction (P := fun scopes => scopes.inner.size = i.scopes.inner.size + 1)
  · exact Scopes.size_inner_push i.scopes Scopes.rootId
  · intro scopes name value h
    rw [← h]
    exact Scopes.size_inner_modify scopes _ _

/-- To begin a call leaves the root alone. -/
@[simp]
lemma root_enter : (i.enter params args).scopes.root = i.scopes.root := by
  apply enter_own_induction (P := fun scopes => scopes.root = i.scopes.root)
  · rfl
  · exact fun _ _ _ h => h

/-- Beginning a call leaves all frames as they are. -/
lemma getElem?_inner_enter (hk : k < i.scopes.inner.size) :
    (i.enter params args).scopes.inner[k]? = i.scopes.inner[k]? := by
  apply enter_own_induction (P := fun scopes => scopes.inner[k]? = i.scopes.inner[k]?)
  · exact Scopes.getElem?_inner_push_of_lt hk
  · intro scopes name value h
    have hne : k + 1 ≠ i.scopes.depth := by
      unfold Scopes.depth
      omega
    rw [← h]
    exact Scopes.getElem?_inner_modify_of_ne hne

/-- The new frame of a call holds no functions. -/
lemma functionsInRoot_enter (h : i.scopes.FunctionsInRoot) :
    (i.enter params args).scopes.FunctionsInRoot :=
  i.enter_induction params args (h.push Scopes.rootId) fun _ id name value h =>
    h.define id name value

/-- One call less is open after a call. -/
@[simp]
lemma callDepth_leave : i.leave.callDepth = i.callDepth - 1 :=
  rfl

/-- The end of a call does not change the limit. -/
@[simp]
lemma limit_leave : i.leave.limit = i.limit :=
  rfl

/-- The end of a call takes the newest frame away. -/
@[simp]
lemma size_inner_leave : i.leave.scopes.inner.size = i.scopes.inner.size - 1 :=
  Scopes.size_inner_pop i.scopes

end Interpreter

/-! ## What evolves keeps its frames -/

variable [Host σ] {i j : Interpreter σ}

/-- **Calls are balanced**: at its end a run has as many frames and open calls as at its beginning,
and the same limit. -/
lemma Evolves.balanced (h : Evolves Called scope i j) :
    j.scopes.inner.size = i.scopes.inner.size ∧ j.callDepth = i.callDepth ∧
      j.limit = i.limit := by
  induction h with
  | refl => exact ⟨rfl, rfl, rfl⟩
  | trans _ _ ihij ihjk =>
    exact ⟨ihjk.1.trans ihij.1, ihjk.2.1.trans ihij.2.1, ihjk.2.2.trans ihij.2.2⟩
  | define _ _ _ => exact ⟨Scopes.size_inner_modify _ _ _, rfl, rfl⟩
  | declare _ _ _ => exact ⟨Scopes.size_inner_modify _ _ _, rfl, rfl⟩
  | register _ => exact ⟨Scopes.size_inner_modify _ _ _, rfl, rfl⟩
  | report _ => exact ⟨rfl, rfl, rfl⟩
  | command _ => exact ⟨rfl, rfl, rfl⟩
  | answer => exact ⟨rfl, rfl, rfl⟩
  | @call _ i j params args _ _ ih =>
    obtain ⟨hsize, hdepth, hlimit⟩ := ih
    refine ⟨?_, ?_, ?_⟩
    · rw [Interpreter.size_inner_leave, hsize, Interpreter.size_inner_enter, Nat.add_sub_cancel]
    · rw [Interpreter.callDepth_leave, hdepth, Interpreter.callDepth_enter, Nat.add_sub_cancel]
    · rw [Interpreter.limit_leave, hlimit, Interpreter.limit_enter]

omit [Host σ] in
/-- Where the body of a call has pushed no frame for good and has kept to its own, popping that
frame brings back the frames from before the call. -/
lemma Interpreter.inner_leave_eq {params : List String} {args : List Value}
    (hsize : j.scopes.inner.size = (i.enter params args).scopes.inner.size)
    (hframes : ∀ k, k + 1 ≠ i.scopes.depth →
      j.scopes.inner[k]? = (i.enter params args).scopes.inner[k]?) :
    j.leave.scopes.inner = i.scopes.inner := by
  apply Array.ext_getElem?
  intro k
  have hpop : j.leave.scopes.inner[k]? =
      if k < i.scopes.inner.size then j.scopes.inner[k]? else none := by
    rw [Interpreter.leave, Scopes.getElem?_inner_pop, hsize, Interpreter.size_inner_enter,
      Nat.add_sub_cancel]
  rw [hpop]
  split
  · next hk =>
    have hne : k + 1 ≠ i.scopes.depth := by
      unfold Scopes.depth
      omega
    rw [hframes k hne, Interpreter.getElem?_inner_enter i params args hk]
  · next hk => rw [Array.getElem?_eq_none (Nat.le_of_not_lt hk)]

/-- **Frames of others are not touched**: of the frames that a run finds, it changes at most the
root and its own.

**Proof sketch.** By induction on what the run does. The frame of a call is newer than all that
were there before, so the hypothesis for its body covers all of them, and the call ends by taking
just that frame away. -/
lemma Evolves.getElem?_inner (h : Evolves Called scope i j) :
    ∀ k, k + 1 ≠ scope → j.scopes.inner[k]? = i.scopes.inner[k]? := by
  have hmodify : ∀ {scope id : ScopeId} (scopes : Scopes) (f : Frame → Frame),
      id = Scopes.rootId ∨ id = scope → ∀ k, k + 1 ≠ scope →
        (scopes.modify id f).inner[k]? = scopes.inner[k]? := by
    rintro scope id scopes f (rfl | rfl) k hk
    · rfl
    · exact Scopes.getElem?_inner_modify_of_ne hk
  induction h with
  | refl => exact fun _ _ => rfl
  | trans _ _ ihij ihjk => exact fun k hk => (ihjk k hk).trans (ihij k hk)
  | @define _ _ i hid _ _ => exact hmodify i.scopes _ hid
  | @declare _ _ i hid _ _ => exact hmodify i.scopes _ hid
  | @register _ i _ _ => exact hmodify i.scopes _ (.inl rfl)
  | report _ => exact fun _ _ => rfl
  | command _ => exact fun _ _ => rfl
  | answer => exact fun _ _ => rfl
  | @call _ i j params args _ hbody ih =>
    intro k _
    exact congrArg (fun inner => inner[k]?) (Interpreter.inner_leave_eq hbody.balanced.1 ih)

/-- After a call all frames but the root are as before it. -/
lemma Evolves.inner_leave {params : List String} {args : List Value}
    (h : Evolves Called i.scopes.depth (i.enter params args) j) :
    j.leave.scopes.inner = i.scopes.inner :=
  Interpreter.inner_leave_eq h.balanced.1 h.getElem?_inner

/-- No frame but the root gets a function. -/
lemma Evolves.functionsInRoot (h : Evolves Called scope i j) :
    i.scopes.FunctionsInRoot → j.scopes.FunctionsInRoot := by
  induction h with
  | refl => exact fun hi => hi
  | trans _ _ ihij ihjk => exact fun hi => ihjk (ihij hi)
  | define _ name value => exact fun hi => hi.define _ name value
  | declare _ name value => exact fun hi => hi.declare _ name value
  | register _ => exact fun hi => hi.register _
  | report _ => exact fun hi => hi
  | command _ => exact fun hi => hi
  | answer => exact fun hi => hi
  | call _ _ ih => exact fun hi => (ih (Interpreter.functionsInRoot_enter _ _ _ hi)).pop

/-! ## Calls -/

/-- A call does only what a run in the root can do, wherever it is made: what it writes besides the
root is gone at its end. -/
lemma runs_callFunction_root (fuel : Nat) {name : String} (hname : Called name)
    (args : List Value) :
    Runs Called Scopes.rootId (callFunction fuel scope name args : Eval σ Value) := by
  cases fuel with
  | zero => exact runs_giveUp
  | succ fuel =>
    refine runs_look_bind fun i hi => ?_
    cases hfound : i.scopes.function? scope name with
    | some decl =>
      have hdecl : decl.CallsOnly Called := hi.of_function? hfound
      exact runs_callDeclared
        (fun inner s hs => (runsWithin σ Called fuel).execute inner s (hdecl s hs)) args i hi
    | none =>
      cases hbuiltin : Builtin.ofName? name with
      | some builtin => exact runs_builtin builtin args i hi
      | none =>
        refine evolves_bind hi (.report ?_) fun _ _ _ => runs_pure _
        rintro other ⟨⟩
        -- What is unknown from the scope is unknown in the root, which is on every chain.
        have hroot : i.scopes.root.functions[name]? = none :=
          List.findSome?_eq_none_iff.mp hfound _
            (Scopes.root_mem_chainWithin i.scopes scope scope)
        have hunknown : i.scopes.function? Scopes.rootId name = none := by
          simp [Scopes.function?, Scopes.chain, Scopes.chainWithin, Scopes.rootId, hroot]
        exact ⟨hname, hunknown, hbuiltin⟩

end DialogueScript
