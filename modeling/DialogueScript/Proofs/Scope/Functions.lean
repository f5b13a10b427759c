import DialogueScript.Scope.Basic
import Mathlib.Tactic.Common

set_option autoImplicit false

/-!
# Function tables

What the operations on scopes do to the functions that the frames hold. Only a registration
changes a table, and it never takes a name away; since every chain ends at the root, a function
of the root is found from everywhere.

## Main definitions

* `DialogueScript.Scopes.EveryFunction` — all registered functions have some property.
* `DialogueScript.Scopes.Registered` — the root holds a function of the given name.

## Main results

* `DialogueScript.Scopes.EveryFunction.of_function?` — what is found has been registered.
* `DialogueScript.Scopes.Registered.function?_ne_none` — what the root holds is found.
-/

namespace DialogueScript

/-- The functions of a frame all have a property. -/
def Frame.EveryFunction (P : FunctionDecl → Prop) (frame : Frame) : Prop :=
  ∀ (name : String) (decl : FunctionDecl), frame.functions[name]? = some decl → P decl

namespace Frame.EveryFunction

variable {P : FunctionDecl → Prop} {frame : Frame}

/-- Every function of the empty frame has the property, since there is none. -/
lemma empty : Frame.empty.EveryFunction P := by
  intro name decl h
  simp [Frame.empty] at h

/-- The functions of a frame still have a property when one that has it is put there. -/
lemma defineFunction (h : frame.EveryFunction P) {decl : FunctionDecl} (hdecl : P decl) :
    (frame.defineFunction decl).EveryFunction P := by
  intro name found hfound
  simp only [Frame.defineFunction, Std.TreeMap.getElem?_insert] at hfound
  split at hfound
  · obtain rfl := Option.some.inj hfound
    exact hdecl
  · exact h name found hfound

end Frame.EveryFunction

namespace Scopes

/-! ## Properties of all functions -/

/-- The functions of all frames have a property. -/
structure EveryFunction (P : FunctionDecl → Prop) (scopes : Scopes) : Prop where
  /-- Those of the root have it. -/
  root : scopes.root.EveryFunction P
  /-- Those of the other frames have it. -/
  inner : ∀ (k : Nat) (inner : InnerFrame), scopes.inner[k]? = some inner →
    inner.frame.EveryFunction P

namespace EveryFunction

variable {P : FunctionDecl → Prop} {scopes : Scopes}

/-- All functions of empty scopes have the property, since there are none. -/
lemma empty : Scopes.empty.EveryFunction P :=
  ⟨Frame.EveryFunction.empty, by simp [Scopes.empty]⟩

/-- To push a frame brings no function with it. -/
lemma push (h : scopes.EveryFunction P) (parent : ScopeId) :
    (scopes.push parent).EveryFunction P := by
  refine ⟨h.root, fun k inner hinner => ?_⟩
  simp only [Scopes.push, Array.getElem?_push] at hinner
  split at hinner
  · obtain rfl := Option.some.inj hinner
    exact Frame.EveryFunction.empty
  · exact h.inner k inner hinner

/-- To pop a frame brings no function with it. -/
lemma pop (h : scopes.EveryFunction P) : scopes.pop.EveryFunction P := by
  refine ⟨h.root, fun k inner hinner => ?_⟩
  simp only [Scopes.pop, Array.getElem?_pop] at hinner
  split at hinner
  · exact h.inner k inner hinner
  · cases hinner

/-- A change of a frame that keeps the property of its functions. -/
lemma modify (h : scopes.EveryFunction P) (id : ScopeId) {f : Frame → Frame}
    (hf : ∀ frame, frame.EveryFunction P → (f frame).EveryFunction P) :
    (scopes.modify id f).EveryFunction P := by
  cases id with
  | zero => exact ⟨hf _ h.root, h.inner⟩
  | succ k =>
    refine ⟨h.root, fun l inner hinner => ?_⟩
    simp only [Scopes.modify, Array.getElem?_modify] at hinner
    split at hinner
    · obtain ⟨old, hold, rfl⟩ := Option.map_eq_some_iff.mp hinner
      exact hf _ (h.inner l old hold)
    · exact h.inner l inner hinner

/-- To bind a variable brings no function with it. -/
lemma define (h : scopes.EveryFunction P) (id : ScopeId) (name : String) (value : Value) :
    (scopes.define id name value).EveryFunction P :=
  h.modify id (f := fun frame => frame.define name value) fun _ hframe => hframe

/-- To declare a variable brings no function with it. -/
lemma declare (h : scopes.EveryFunction P) (id : ScopeId) (name : String) (value : Value) :
    (scopes.modify id fun frame => frame.declare name value).EveryFunction P :=
  h.modify id (f := fun frame => frame.declare name value) fun _ hframe => hframe

/-- An assignment brings no function with it. -/
lemma assign (h : scopes.EveryFunction P) (id : ScopeId) (name : String) (value : Value) :
    (scopes.assign id name value).EveryFunction P := by
  rw [Scopes.assign]
  split
  · exact h.define rootId name value
  · exact h.define id name value

/-- The functions of all frames still have a property when one that has it is put into a frame. -/
lemma defineFunction (h : scopes.EveryFunction P) (id : ScopeId) {decl : FunctionDecl}
    (hdecl : P decl) : (scopes.defineFunction id decl).EveryFunction P :=
  h.modify id (f := fun frame => frame.defineFunction decl) fun _ hframe =>
    hframe.defineFunction hdecl

/-- The frames of a chain have what all frames have. -/
lemma of_mem_chainWithin (h : scopes.EveryFunction P) {hops : Nat} {id : ScopeId} {frame : Frame}
    (hframe : frame ∈ scopes.chainWithin hops id) : frame.EveryFunction P := by
  fun_induction Scopes.chainWithin scopes hops id with
  | case1 => exact List.mem_singleton.mp hframe ▸ h.root
  | case2 => exact List.mem_singleton.mp hframe ▸ h.root
  | case3 hops k inner hinner ih =>
    rcases List.mem_cons.mp hframe with rfl | hframe
    · exact h.inner k inner hinner
    · exact ih hframe
  | case4 => exact List.mem_singleton.mp hframe ▸ h.root

/-- What is found has been registered somewhere. -/
lemma of_function? (h : scopes.EveryFunction P) {id : ScopeId} {name : String}
    {decl : FunctionDecl} (hdecl : scopes.function? id name = some decl) : P decl := by
  obtain ⟨frame, hframe, hfound⟩ := List.exists_of_findSome?_eq_some hdecl
  exact h.of_mem_chainWithin hframe name decl hfound

end EveryFunction

/-! ## Names of functions -/

/-- The root holds a function of the given name. -/
def Registered (scopes : Scopes) (name : String) : Prop :=
  scopes.root.functions.contains name = true

variable {scopes : Scopes} {name : String}

/-- A change of frames that takes no function away. -/
lemma Registered.modify (h : scopes.Registered name) (id : ScopeId) {f : Frame → Frame}
    (hf : ∀ frame, frame.functions.contains name = true →
      (f frame).functions.contains name = true) : (scopes.modify id f).Registered name := by
  cases id with
  | zero => exact hf _ h
  | succ k => exact h

/-- A function is still in the root after a variable is bound. -/
lemma Registered.define (h : scopes.Registered name) (id : ScopeId) (bound : String)
    (value : Value) : (scopes.define id bound value).Registered name :=
  h.modify id (f := fun frame => frame.define bound value) fun _ hframe => hframe

/-- A function is still in the root after a variable is declared. -/
lemma Registered.declare (h : scopes.Registered name) (id : ScopeId) (bound : String)
    (value : Value) :
    (scopes.modify id fun frame => frame.declare bound value).Registered name :=
  h.modify id (f := fun frame => frame.declare bound value) fun _ hframe => hframe

/-- A name still has a function in the root when another one is put into a frame. -/
lemma Registered.defineFunction (h : scopes.Registered name) (id : ScopeId)
    (decl : FunctionDecl) : (scopes.defineFunction id decl).Registered name :=
  h.modify id fun frame hframe => by simp [Frame.defineFunction, hframe]

/-- What was just registered in the root is there. -/
lemma registered_defineFunction (scopes : Scopes) (decl : FunctionDecl) :
    (scopes.defineFunction rootId decl).Registered decl.name := by
  simp [Registered, Scopes.defineFunction, Scopes.modify, rootId, Frame.defineFunction]

/-- The root is on every chain. -/
lemma root_mem_chainWithin (scopes : Scopes) (hops : Nat) (id : ScopeId) :
    scopes.root ∈ scopes.chainWithin hops id := by
  fun_induction Scopes.chainWithin scopes hops id with
  | case1 => simp
  | case2 => simp
  | case3 hops k inner hinner ih => exact List.mem_cons_of_mem _ ih
  | case4 => simp

/-- What the root holds is found from everywhere. -/
lemma Registered.function?_ne_none (h : scopes.Registered name) (id : ScopeId) :
    scopes.function? id name ≠ none := by
  intro hnone
  have hroot := List.findSome?_eq_none_iff.mp hnone _ (root_mem_chainWithin scopes id id)
  rw [Registered, Std.TreeMap.contains_eq_isSome_getElem?, hroot] at h
  cases h

end Scopes

end DialogueScript
