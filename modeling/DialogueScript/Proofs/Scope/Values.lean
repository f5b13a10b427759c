import DialogueScript.Scope.Basic
import Mathlib.Tactic.Common

set_option autoImplicit false

/-!
# Values of variables

What the operations on scopes do to the values that the variables hold. A frame that is pushed holds
nothing, one that is popped takes its variables with it, and a change of a frame is seen in that
frame only. So a property that all values have is lost only where a value without it is bound, and
what a reader finds along a chain has been bound in some frame.

## Main definitions

* `DialogueScript.Scopes.EveryValue` — the variables of all frames have some property.

## Main results

* `DialogueScript.Scopes.frame?_modify` — the frames after a change.
* `DialogueScript.Scopes.EveryValue.define`, `DialogueScript.Scopes.EveryValue.declare` — binding a
  value that has the property.
* `DialogueScript.Scopes.EveryValue.lookup` — what is found has the property.
-/

namespace DialogueScript

/-- The variables of a frame all have a property. -/
def Frame.EveryValue (P : Value → Prop) (frame : Frame) : Prop :=
  ∀ (name : String) (value : Value), frame.vars[name]? = some value → P value

namespace Frame.EveryValue

variable {P : Value → Prop} {frame : Frame}

/-- Every variable of the empty frame has the property, since there is none. -/
lemma empty : Frame.empty.EveryValue P := by
  intro name value h
  simp [Frame.empty] at h

/-- The variables of a frame still have a property when one is bound to a value that has it. -/
lemma define (h : frame.EveryValue P) (name : String) {value : Value} (hvalue : P value) :
    (frame.define name value).EveryValue P := by
  intro other found hfound
  simp only [Frame.define, Std.TreeMap.getElem?_insert] at hfound
  split at hfound
  · obtain rfl := Option.some.inj hfound
    exact hvalue
  · exact h other found hfound

/-- The variables of a frame still have a property when one is declared with a value that has it. -/
lemma declare (h : frame.EveryValue P) (name : String) {value : Value} (hvalue : P value) :
    (frame.declare name value).EveryValue P := by
  intro other found hfound
  simp only [Frame.declare, Std.TreeMap.getElem?_insertIfNew] at hfound
  split at hfound
  · obtain rfl := Option.some.inj hfound
    exact hvalue
  · exact h other found hfound

end Frame.EveryValue

namespace Scopes

variable {scopes : Scopes} {scope : ScopeId} {frame : Frame}

/-! ## Frames by number -/

/-- A change of a frame is seen in that frame only. -/
lemma frame?_modify (scopes : Scopes) (id scope : ScopeId) (f : Frame → Frame) :
    (scopes.modify id f).frame? scope =
      if id = scope then (scopes.frame? scope).map f else scopes.frame? scope := by
  cases id with
  | zero =>
    cases scope with
    | zero => rfl
    | succ k => rfl
  | succ l =>
    cases scope with
    | zero => rfl
    | succ k =>
      by_cases hk : l = k
      · subst hk
        simp only [modify, frame?, Array.getElem?_modify, if_true, Option.map_map]
        rfl
      · have hne : l + 1 ≠ k + 1 := by omega
        simp only [modify, frame?, Array.getElem?_modify, if_neg hk, if_neg hne]

/-- A frame after a push is the new one or was there before. -/
lemma frame?_of_push {parent : ScopeId} (h : (scopes.push parent).frame? scope = some frame) :
    frame = Frame.empty ∨ scopes.frame? scope = some frame := by
  cases scope with
  | zero => exact .inr h
  | succ k =>
    obtain ⟨inner, hinner, rfl⟩ := Option.map_eq_some_iff.mp h
    simp only [push, Array.getElem?_push] at hinner
    split at hinner
    · obtain rfl := Option.some.inj hinner
      exact .inl rfl
    · exact .inr (Option.map_eq_some_iff.mpr ⟨inner, hinner, rfl⟩)

/-- A frame after a pop was there before. -/
lemma frame?_of_pop (h : scopes.pop.frame? scope = some frame) :
    scopes.frame? scope = some frame := by
  cases scope with
  | zero => exact h
  | succ k =>
    obtain ⟨inner, hinner, rfl⟩ := Option.map_eq_some_iff.mp h
    simp only [pop, Array.getElem?_pop] at hinner
    split at hinner
    · exact Option.map_eq_some_iff.mpr ⟨inner, hinner, rfl⟩
    · cases hinner

/-- The frames of a chain are frames of the scopes. -/
lemma exists_frame?_of_mem_chainWithin {hops : Nat} (h : frame ∈ scopes.chainWithin hops scope) :
    ∃ id, scopes.frame? id = some frame := by
  have hroot : frame ∈ [scopes.root] → ∃ id, scopes.frame? id = some frame := by
    intro hmem
    obtain rfl := List.mem_singleton.mp hmem
    exact ⟨rootId, rfl⟩
  fun_induction Scopes.chainWithin scopes hops scope with
  | case1 => exact hroot h
  | case2 => exact hroot h
  | case3 hops k inner hinner ih =>
    rcases List.mem_cons.mp h with rfl | hmem
    · exact ⟨k + 1, by simp [frame?, hinner]⟩
    · exact ih hmem
  | case4 => exact hroot h

/-! ## Properties of all values -/

/-- The variables of all frames have a property. -/
def EveryValue (P : Value → Prop) (scopes : Scopes) : Prop :=
  ∀ (scope : ScopeId) (frame : Frame), scopes.frame? scope = some frame → frame.EveryValue P

namespace EveryValue

variable {P : Value → Prop}

/-- All variables of empty scopes have the property, since there are none. -/
lemma empty : Scopes.empty.EveryValue P := by
  intro scope frame h
  cases scope with
  | zero =>
    obtain rfl := Option.some.inj h
    exact .empty
  | succ k => simp [Scopes.empty, frame?] at h

/-- To push a frame brings no variable with it. -/
lemma push (h : scopes.EveryValue P) (parent : ScopeId) : (scopes.push parent).EveryValue P := by
  intro scope frame hframe
  rcases frame?_of_push hframe with rfl | hframe
  · exact .empty
  · exact h scope frame hframe

/-- To pop a frame brings no variable with it. -/
lemma pop (h : scopes.EveryValue P) : scopes.pop.EveryValue P :=
  fun scope frame hframe => h scope frame (frame?_of_pop hframe)

/-- A change of a frame that keeps the property of its variables. -/
lemma modify (h : scopes.EveryValue P) (id : ScopeId) {f : Frame → Frame}
    (hf : ∀ frame, frame.EveryValue P → (f frame).EveryValue P) :
    (scopes.modify id f).EveryValue P := by
  intro scope frame hframe
  rw [frame?_modify] at hframe
  split at hframe
  · obtain ⟨old, hold, rfl⟩ := Option.map_eq_some_iff.mp hframe
    exact hf old (h scope old hold)
  · exact h scope frame hframe

/-- The variables of all frames still have a property when one is bound to a value that has it. -/
lemma define (h : scopes.EveryValue P) (id : ScopeId) (name : String) {value : Value}
    (hvalue : P value) : (scopes.define id name value).EveryValue P :=
  h.modify id fun _ hframe => hframe.define name hvalue

/-- The variables of all frames still have a property when one is declared with a value that has it.
-/
lemma declare (h : scopes.EveryValue P) (id : ScopeId) (name : String) {value : Value}
    (hvalue : P value) : (scopes.modify id fun frame => frame.declare name value).EveryValue P :=
  h.modify id fun _ hframe => hframe.declare name hvalue

/-- To put a function into a frame brings no variable with it. -/
lemma defineFunction (h : scopes.EveryValue P) (id : ScopeId) (decl : FunctionDecl) :
    (scopes.defineFunction id decl).EveryValue P :=
  h.modify id fun _ hframe => hframe

/-- The variables of all frames still have a property after the assignment of a value that has it.
-/
lemma assign (h : scopes.EveryValue P) (id : ScopeId) (name : String) {value : Value}
    (hvalue : P value) : (scopes.assign id name value).EveryValue P := by
  rw [Scopes.assign]
  split
  · exact h.define rootId name hvalue
  · exact h.define id name hvalue

/-- What a reader finds has the property, and `nil` has to have it for what is not bound. -/
lemma lookup (h : scopes.EveryValue P) (hnil : P .nil) (id : ScopeId) (name : String) :
    P (scopes.lookup id name) := by
  rw [Scopes.lookup]
  cases hget : scopes.get? id name with
  | none => exact hnil
  | some value =>
    obtain ⟨frame, hmem, hfound⟩ := List.exists_of_findSome?_eq_some hget
    obtain ⟨k, hframe⟩ := exists_frame?_of_mem_chainWithin hmem
    exact h k frame hframe name value hfound

/-- If the variables of all frames have a property, so does a variable of the root. -/
lemma global? (h : scopes.EveryValue P) {name : String} {value : Value}
    (hvalue : scopes.global? name = some value) : P value :=
  h rootId scopes.root rfl name value hvalue

end EveryValue

end Scopes

end DialogueScript
