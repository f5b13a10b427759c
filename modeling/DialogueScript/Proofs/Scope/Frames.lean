import DialogueScript.Scope.Basic
import Mathlib.Tactic.Common

set_option autoImplicit false

/-!
# Frames one by one

What the operations on scopes do to each frame by itself. Changing a frame leaves all others as they
are and never changes their number, and pushing and popping only concern the newest frame.

Programs register their functions in the root alone. As long as no other frame holds a function,
where a name is looked up makes no difference to which function is found.

## Main definitions

* `DialogueScript.Scopes.FunctionsInRoot` — no frame but the root holds functions.

## Main results

* `DialogueScript.Scopes.getElem?_inner_modify_of_ne` — a change of one frame is not seen in
  another.
* `DialogueScript.Scopes.FunctionsInRoot.function?_eq` — then functions are found in the root.
-/

namespace DialogueScript

namespace Scopes

variable {scopes : Scopes} {id : ScopeId} {f : Frame → Frame} {k : Nat}

/-! ## Numbers of frames -/

/-- A change of one frame does not change how many there are. -/
@[simp]
lemma size_inner_modify (scopes : Scopes) (id : ScopeId) (f : Frame → Frame) :
    (scopes.modify id f).inner.size = scopes.inner.size := by
  cases id with
  | zero => rfl
  | succ k => simp only [modify, Array.size_modify]

/-- To push a frame makes one frame more. -/
@[simp]
lemma size_inner_push (scopes : Scopes) (parent : ScopeId) :
    (scopes.push parent).inner.size = scopes.inner.size + 1 := by
  simp only [push, Array.size_push]

/-- To pop a frame makes one frame less, if there is any over the root. -/
@[simp]
lemma size_inner_pop (scopes : Scopes) : scopes.pop.inner.size = scopes.inner.size - 1 := by
  simp only [pop, Array.size_pop]

/-! ## Single frames -/

/-- A frame is changed in its own place only. -/
lemma getElem?_inner_modify_of_ne (h : k + 1 ≠ id) :
    (scopes.modify id f).inner[k]? = scopes.inner[k]? := by
  cases id with
  | zero => rfl
  | succ l =>
    have hne : l ≠ k := by omega
    simp only [modify, Array.getElem?_modify, if_neg hne]

/-- The frame that is changed keeps its parent. -/
lemma getElem?_inner_modify_self :
    (scopes.modify (k + 1) f).inner[k]? =
      scopes.inner[k]?.map fun inner => { inner with frame := f inner.frame } := by
  simp only [modify, Array.getElem?_modify, if_true]

/-- The frames that were there are still there below the one that is pushed. -/
lemma getElem?_inner_push_of_lt {parent : ScopeId} (h : k < scopes.inner.size) :
    (scopes.push parent).inner[k]? = scopes.inner[k]? := by
  have hne : k ≠ scopes.inner.size := by omega
  simp only [push, Array.getElem?_push, if_neg hne]

/-- All frames but the newest are left when it is popped. -/
lemma getElem?_inner_pop :
    scopes.pop.inner[k]? = if k < scopes.inner.size - 1 then scopes.inner[k]? else none := by
  simp only [pop, Array.getElem?_pop]

/-! ## Functions -/

/-- No frame but the root holds functions. -/
def FunctionsInRoot (scopes : Scopes) : Prop :=
  ∀ (k : Nat) (inner : InnerFrame), scopes.inner[k]? = some inner → inner.frame.functions = ∅

namespace FunctionsInRoot

/-- With no frame but the root, no other frame holds functions. -/
lemma of_inner_eq_empty (h : scopes.inner = #[]) : scopes.FunctionsInRoot := by
  intro k inner hinner
  rw [h] at hinner
  simp at hinner

/-- A frame that is pushed holds no functions. -/
lemma push (h : scopes.FunctionsInRoot) (parent : ScopeId) :
    (scopes.push parent).FunctionsInRoot := by
  intro k inner hinner
  simp only [Scopes.push, Array.getElem?_push] at hinner
  split at hinner
  · obtain rfl := Option.some.inj hinner
    rfl
  · exact h k inner hinner

/-- To pop a frame gives functions to no frame. -/
lemma pop (h : scopes.FunctionsInRoot) : scopes.pop.FunctionsInRoot := by
  intro k inner hinner
  rw [getElem?_inner_pop] at hinner
  split at hinner
  · exact h k inner hinner
  · cases hinner

/-- A change of a frame that is the root, or keeps the functions of the frame. -/
lemma modify (h : scopes.FunctionsInRoot)
    (hf : id = rootId ∨ ∀ frame, (f frame).functions = frame.functions) :
    (scopes.modify id f).FunctionsInRoot := by
  intro k inner hinner
  by_cases hk : k + 1 = id
  · subst hk
    rw [getElem?_inner_modify_self] at hinner
    obtain ⟨old, hold, rfl⟩ := Option.map_eq_some_iff.mp hinner
    rcases hf with hroot | hf
    · cases hroot
    · rw [hf old.frame, h k old hold]
  · rw [getElem?_inner_modify_of_ne hk] at hinner
    exact h k inner hinner

/-- To bind a variable gives functions to no frame. -/
lemma define (h : scopes.FunctionsInRoot) (id : ScopeId) (name : String) (value : Value) :
    (scopes.define id name value).FunctionsInRoot :=
  h.modify (.inr fun _ => rfl)

/-- To declare a variable gives functions to no frame. -/
lemma declare (h : scopes.FunctionsInRoot) (id : ScopeId) (name : String) (value : Value) :
    (scopes.modify id fun frame => frame.declare name value).FunctionsInRoot :=
  h.modify (.inr fun _ => rfl)

/-- A function that is registered in the root is in no other frame. -/
lemma register (h : scopes.FunctionsInRoot) (decl : FunctionDecl) :
    (scopes.defineFunction rootId decl).FunctionsInRoot :=
  h.modify (.inl rfl)

/-- A chain finds the functions of the root and no others. -/
lemma findSome?_chainWithin (h : scopes.FunctionsInRoot) (hops : Nat) (id : ScopeId)
    (name : String) :
    (scopes.chainWithin hops id).findSome? (fun frame => frame.functions[name]?) =
      scopes.root.functions[name]? := by
  have hroot : [scopes.root].findSome? (fun frame => frame.functions[name]?) =
      scopes.root.functions[name]? := by
    rw [List.findSome?_cons, List.findSome?_nil]
    cases scopes.root.functions[name]? with
    | none => rfl
    | some decl => rfl
  fun_induction Scopes.chainWithin scopes hops id with
  | case1 => exact hroot
  | case2 => exact hroot
  | case3 hops k inner hinner ih =>
    have hnone : inner.frame.functions[name]? = none := by simp [h k inner hinner]
    rw [List.findSome?_cons, hnone]
    exact ih
  | case4 => exact hroot

/-- **Functions are found in the root**, wherever one looks from. -/
lemma function?_eq (h : scopes.FunctionsInRoot) (id : ScopeId) (name : String) :
    scopes.function? id name = scopes.root.functions[name]? :=
  h.findSome?_chainWithin id id name

end FunctionsInRoot

end Scopes

end DialogueScript
