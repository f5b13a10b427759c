import DialogueScript.Proofs.Scope.Frames

set_option autoImplicit false

/-!
# Scopes that agree from some frame on

Two frames are the same if every name has the same value and stands for the same function in both;
how the bindings are stored does not count. Two scopes *agree from* a number on if their roots are
the same, they have as many frames, and the frames from that one on are the same and lie directly
over the root. The frames below may hold anything. Everything that is looked up from a frame on
which the scopes agree has the same result in both, and all operations keep the agreement.

## Main definitions

* `DialogueScript.Frame.Same` — frames with the same bindings.
* `DialogueScript.Scopes.AgreeFrom` — scopes that only differ below some frame.

## Main results

* `DialogueScript.Scopes.AgreeFrom.modify`, `DialogueScript.Scopes.AgreeFrom.push`,
  `DialogueScript.Scopes.AgreeFrom.pop` — the operations keep the agreement.
* `DialogueScript.Scopes.AgreeFrom.lookup_eq`, `DialogueScript.Scopes.AgreeFrom.function?_eq` — what
  is looked up has the same result.
-/

namespace DialogueScript

/-! ## Frames with the same bindings -/

/-- Every name has the same value and stands for the same function in both frames. -/
structure Frame.Same (a b : Frame) : Prop where
  /-- The variables are the same. -/
  vars : ∀ name : String, a.vars[name]? = b.vars[name]?
  /-- The functions are the same. -/
  functions : ∀ name : String, a.functions[name]? = b.functions[name]?

namespace Frame.Same

variable {a b : Frame}

/-- A frame has the same bindings as itself. -/
lemma refl (a : Frame) : a.Same a :=
  ⟨fun _ => rfl, fun _ => rfl⟩

/-- To have the same bindings does not depend on the order of the frames. -/
lemma symm (h : a.Same b) : b.Same a :=
  ⟨fun name => (h.vars name).symm, fun name => (h.functions name).symm⟩

/-- Frames with the same bindings still have them when the same variable is bound in both. -/
lemma define (h : a.Same b) (name : String) (value : Value) :
    (a.define name value).Same (b.define name value) := by
  refine ⟨fun other => ?_, h.functions⟩
  simp only [Frame.define, Std.TreeMap.getElem?_insert, h.vars]

/-- Frames with the same bindings still have them when the same variable is declared in both. -/
lemma declare (h : a.Same b) (name : String) (value : Value) :
    (a.declare name value).Same (b.declare name value) := by
  refine ⟨fun other => ?_, h.functions⟩
  have hbound : name ∈ a.vars ↔ name ∈ b.vars := by
    rw [Std.TreeMap.mem_iff_isSome_getElem?, Std.TreeMap.mem_iff_isSome_getElem?, h.vars]
  simp only [Frame.declare, Std.TreeMap.getElem?_insertIfNew, hbound, h.vars]

/-- Frames with the same bindings still have them when the same function is put into both. -/
lemma defineFunction (h : a.Same b) (decl : FunctionDecl) :
    (a.defineFunction decl).Same (b.defineFunction decl) := by
  refine ⟨h.vars, fun other => ?_⟩
  simp only [Frame.defineFunction, Std.TreeMap.getElem?_insert, h.functions]

end Frame.Same

namespace Scopes

/-- The roots are the same, there are as many frames, and those from the given number on are the
same and have the root as their parent. -/
structure AgreeFrom (base : Nat) (a b : Scopes) : Prop where
  /-- The roots are the same. -/
  root : a.root.Same b.root
  /-- There are as many frames. -/
  size : a.inner.size = b.inner.size
  /-- Frames that are not below are the same and lie over the root. -/
  inner : ∀ (k : Nat) (x y : InnerFrame), base ≤ k → a.inner[k]? = some x → b.inner[k]? = some y →
    x.frame.Same y.frame ∧ x.parent = rootId ∧ y.parent = rootId

namespace AgreeFrom

variable {base : Nat} {a b : Scopes} {scope : ScopeId}

/-! ## What keeps the agreement -/

/-- Scopes still agree after a change of the same frame that respects the bindings of frames. -/
lemma modify (h : AgreeFrom base a b) (id : ScopeId) {f : Frame → Frame}
    (hf : ∀ x y, Frame.Same x y → (f x).Same (f y)) :
    AgreeFrom base (a.modify id f) (b.modify id f) := by
  refine ⟨?_, by rw [size_inner_modify, size_inner_modify, h.size], ?_⟩
  · cases id with
    | zero => exact hf _ _ h.root
    | succ k => exact h.root
  · intro k x y hk hx hy
    by_cases hid : k + 1 = id
    · subst hid
      rw [getElem?_inner_modify_self] at hx hy
      obtain ⟨before, hbefore, rfl⟩ := Option.map_eq_some_iff.mp hx
      obtain ⟨before', hbefore', rfl⟩ := Option.map_eq_some_iff.mp hy
      obtain ⟨hsame, hparents⟩ := h.inner k before before' hk hbefore hbefore'
      exact ⟨hf _ _ hsame, hparents⟩
    · rw [getElem?_inner_modify_of_ne hid] at hx hy
      exact h.inner k x y hk hx hy

/-- Scopes still agree when the same variable is bound in the same frame of both. -/
lemma define (h : AgreeFrom base a b) (id : ScopeId) (name : String) (value : Value) :
    AgreeFrom base (a.define id name value) (b.define id name value) :=
  h.modify id fun _ _ hsame => hsame.define name value

/-- Scopes still agree when a frame is put over the root of both. -/
lemma push (h : AgreeFrom base a b) : AgreeFrom base (a.push rootId) (b.push rootId) := by
  refine ⟨h.root, by rw [size_inner_push, size_inner_push, h.size], fun k x y hk hx hy => ?_⟩
  simp only [Scopes.push, Array.getElem?_push, h.size] at hx hy
  by_cases hnew : k = b.inner.size
  · rw [if_pos hnew] at hx hy
    obtain rfl := Option.some.inj hx
    obtain rfl := Option.some.inj hy
    exact ⟨.refl _, rfl, rfl⟩
  · rw [if_neg hnew] at hx hy
    exact h.inner k x y hk hx hy

/-- Scopes still agree when the newest frame of both is removed. -/
lemma pop (h : AgreeFrom base a b) : AgreeFrom base a.pop b.pop := by
  refine ⟨h.root, by rw [size_inner_pop, size_inner_pop, h.size], fun k x y hk hx hy => ?_⟩
  rw [getElem?_inner_pop] at hx hy
  split at hx
  · split at hy
    · exact h.inner k x y hk hx hy
    · cases hy
  · cases hx

/-! ## What is looked up -/

/-- The chain from a frame on which the scopes agree is that frame and the root. -/
lemma findSome?_chain_eq (h : AgreeFrom base a b) (hscope : scope = rootId ∨ base < scope)
    {β : Type} {see : Frame → Option β} (hsee : ∀ x y, Frame.Same x y → see x = see y) :
    (a.chain scope).findSome? see = (b.chain scope).findSome? see := by
  have hroot : [a.root].findSome? see = [b.root].findSome? see := by
    simp only [List.findSome?_cons, hsee _ _ h.root]
  have hend : ∀ (scopes : Scopes) (hops : Nat), scopes.chainWithin hops rootId = [scopes.root] := by
    intro scopes hops
    cases hops with
    | zero => rfl
    | succ hops => rfl
  cases scope with
  | zero => exact hroot
  | succ k =>
    have hk : base ≤ k := by
      rcases hscope with hzero | hlt
      · cases hzero
      · exact Nat.le_of_lt_succ hlt
    by_cases hlt : k < a.inner.size
    · have ha : a.inner[k]? = some a.inner[k] := Array.getElem?_eq_getElem hlt
      have hlt' : k < b.inner.size := h.size ▸ hlt
      have hb : b.inner[k]? = some b.inner[k] := Array.getElem?_eq_getElem hlt'
      obtain ⟨hsame, hparent, hparent'⟩ := h.inner k _ _ hk ha hb
      simp only [chain, chainWithin, ha, hb, hparent, hparent', hend, List.findSome?_cons,
        hsee _ _ hsame, hsee _ _ h.root]
    · have ha : a.inner[k]? = none := Array.getElem?_eq_none (Nat.le_of_not_lt hlt)
      have hb : b.inner[k]? = none := Array.getElem?_eq_none (h.size ▸ Nat.le_of_not_lt hlt)
      simp only [chain, chainWithin, ha, hb, hroot]

/-- A variable has the same value in scopes that agree, seen from the root or from a frame behind
the given number. -/
lemma lookup_eq (h : AgreeFrom base a b) (hscope : scope = rootId ∨ base < scope)
    (name : String) : a.lookup scope name = b.lookup scope name := by
  have hget : a.get? scope name = b.get? scope name :=
    h.findSome?_chain_eq hscope fun _ _ hsame => hsame.vars name
  rw [lookup, lookup, hget]

/-- A name stands for the same function in scopes that agree, seen from the root or from a frame
behind the given number. -/
lemma function?_eq (h : AgreeFrom base a b) (hscope : scope = rootId ∨ base < scope)
    (name : String) : a.function? scope name = b.function? scope name :=
  h.findSome?_chain_eq hscope fun _ _ hsame => hsame.functions name

end AgreeFrom

end Scopes

end DialogueScript
