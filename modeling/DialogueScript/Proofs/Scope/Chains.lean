import DialogueScript.Proofs.Scope.Frames
import DialogueScript.Proofs.Scope.Values
import Mathlib.Logic.Relation

set_option autoImplicit false

/-!
# The tree of frames

A frame is pushed over one that is there, and only the newest frame is popped. So the parent of a
frame is always older than the frame, whatever has been pushed and popped before, and numbers that
come free are given to new frames without harm. The parents of a frame lead to the root in steps to
smaller numbers, and the chain that a reader follows is just that way.

A step of the history of some scopes is said to push, to pop or to change a single frame
(`DialogueScript.Scopes.Step.cases`), and what holds throughout the history follows from these
three.

## Main definitions

* `DialogueScript.Scopes.parent?`, `DialogueScript.Scopes.Live` — links and numbers in use.
* `DialogueScript.Scopes.Step`, `DialogueScript.Scopes.Reachable` — the operations, one by one and
  in a row.
* `DialogueScript.Scopes.Rooted` — every parent is older than its child.
* `DialogueScript.Scopes.Leads` — the way from a frame to the root.
* `DialogueScript.Scopes.binding?` — what a frame itself binds.

## Main results

* `DialogueScript.Scopes.Reachable.rooted` — parents are older throughout.
* `DialogueScript.Scopes.Rooted.exists_leads` — there is a way from every frame to the root.
* `DialogueScript.Scopes.Leads.findSome?_chain` — a chain follows that way.
-/

namespace DialogueScript

namespace Scopes

variable {scopes scopes' : Scopes} {scope parent id : ScopeId} {ids : List ScopeId}

/-! ## Links -/

/-- The number of the parent of a frame. The root has no parent, and neither has a number that is
not in use. -/
def parent? (scopes : Scopes) : ScopeId → Option ScopeId
  | 0 => none
  | k + 1 => scopes.inner[k]?.map InnerFrame.parent

/-- There is a frame with the number. -/
def Live (scopes : Scopes) (scope : ScopeId) : Prop :=
  scope < scopes.depth

/-- Whether a frame is there can be decided. -/
instance (scopes : Scopes) (scope : ScopeId) : Decidable (scopes.Live scope) :=
  inferInstanceAs (Decidable (scope < scopes.depth))

/-- A frame that is there can be found. -/
lemma Live.exists_frame? (h : scopes.Live scope) : ∃ frame, scopes.frame? scope = some frame := by
  cases scope with
  | zero => exact ⟨scopes.root, rfl⟩
  | succ k =>
    have hk : k < scopes.inner.size := Nat.lt_of_succ_lt_succ h
    exact ⟨scopes.inner[k].frame, by simp [frame?, Array.getElem?_eq_getElem hk]⟩

/-- A frame that is there has a parent, unless it is the root. -/
lemma Live.exists_parent? (h : scopes.Live scope) (hroot : scope ≠ rootId) :
    ∃ parent, scopes.parent? scope = some parent := by
  cases scope with
  | zero => exact absurd rfl hroot
  | succ k =>
    have hk : k < scopes.inner.size := Nat.lt_of_succ_lt_succ h
    exact ⟨scopes.inner[k].parent, by simp [parent?, Array.getElem?_eq_getElem hk]⟩

/-- A change of a frame leaves all links as they are. -/
@[simp]
lemma parent?_modify (scopes : Scopes) (id scope : ScopeId) (f : Frame → Frame) :
    (scopes.modify id f).parent? scope = scopes.parent? scope := by
  cases scope with
  | zero => rfl
  | succ k =>
    by_cases hk : k + 1 = id
    · subst hk
      simp only [parent?, getElem?_inner_modify_self, Option.map_map]
      rfl
    · simp only [parent?, getElem?_inner_modify_of_ne hk]

/-- A link after a push is that of the new frame or was there before. -/
lemma parent?_of_push {under : ScopeId} (h : (scopes.push under).parent? scope = some parent) :
    scope = scopes.depth ∧ parent = under ∨ scopes.parent? scope = some parent := by
  cases scope with
  | zero => cases h
  | succ k =>
    obtain ⟨inner, hinner, rfl⟩ := Option.map_eq_some_iff.mp h
    simp only [push, Array.getElem?_push] at hinner
    split at hinner
    · next hk =>
      obtain rfl := Option.some.inj hinner
      exact .inl ⟨by rw [hk, depth], rfl⟩
    · exact .inr (Option.map_eq_some_iff.mpr ⟨inner, hinner, rfl⟩)

/-- A link after a pop was there before. -/
lemma parent?_of_pop (h : scopes.pop.parent? scope = some parent) :
    scopes.parent? scope = some parent := by
  cases scope with
  | zero => cases h
  | succ k =>
    obtain ⟨inner, hinner, rfl⟩ := Option.map_eq_some_iff.mp h
    rw [getElem?_inner_pop] at hinner
    split at hinner
    · exact Option.map_eq_some_iff.mpr ⟨inner, hinner, rfl⟩
    · cases hinner

/-! ## Histories -/

/-- One operation on scopes. A frame is pushed over one that is there, the newest one is popped, and
everything else is done to a frame that is there. -/
inductive Step : Scopes → Scopes → Prop
  /-- Push a frame. -/
  | push {scopes : Scopes} {parent : ScopeId} (hparent : scopes.Live parent) :
      Step scopes (scopes.push parent)
  /-- Pop the newest frame. -/
  | pop {scopes : Scopes} : Step scopes scopes.pop
  /-- Bind a variable. -/
  | define {scopes : Scopes} {scope : ScopeId} (hscope : scopes.Live scope) (name : String)
      (value : Value) : Step scopes (scopes.define scope name value)
  /-- Assign to a variable. -/
  | assign {scopes : Scopes} {scope : ScopeId} (hscope : scopes.Live scope) (name : String)
      (value : Value) : Step scopes (scopes.assign scope name value)
  /-- Bind a variable of the whole program. -/
  | setGlobal {scopes : Scopes} (name : String) (value : Value) :
      Step scopes (scopes.setGlobal name value)
  /-- Declare a variable of the whole program. -/
  | declareGlobal {scopes : Scopes} (name : String) : Step scopes (scopes.declareGlobal name)
  /-- Declare a variable of a frame. -/
  | declareLocal {scopes : Scopes} {scope : ScopeId} (hscope : scopes.Live scope) (name : String) :
      Step scopes (scopes.declareLocal scope name)
  /-- Register a function. -/
  | defineFunction {scopes : Scopes} {scope : ScopeId} (hscope : scopes.Live scope)
      (decl : FunctionDecl) : Step scopes (scopes.defineFunction scope decl)

/-- Scopes that come from the root alone by some operations in a row. -/
def Reachable (scopes : Scopes) : Prop :=
  Relation.ReflTransGen Step Scopes.empty scopes

/-- **What an operation can do**: push a frame over one that is there, pop one, or change one. -/
lemma Step.cases (h : Step scopes scopes') :
    (∃ parent, scopes.Live parent ∧ scopes' = scopes.push parent) ∨ scopes' = scopes.pop ∨
      ∃ id f, scopes' = scopes.modify id f := by
  cases h with
  | push hparent => exact .inl ⟨_, hparent, rfl⟩
  | pop => exact .inr (.inl rfl)
  | define _ _ _ => exact .inr (.inr ⟨_, _, rfl⟩)
  | assign _ name value =>
    rw [Scopes.assign]
    split
    · exact .inr (.inr ⟨_, _, rfl⟩)
    · exact .inr (.inr ⟨_, _, rfl⟩)
  | setGlobal name value => exact .inr (.inr ⟨rootId, (·.define name value), rfl⟩)
  | declareGlobal _ => exact .inr (.inr ⟨_, _, rfl⟩)
  | declareLocal _ _ => exact .inr (.inr ⟨_, _, rfl⟩)
  | defineFunction _ _ => exact .inr (.inr ⟨_, _, rfl⟩)

/-! ## Parents are older -/

/-- Every frame but the root lies over an older one. -/
def Rooted (scopes : Scopes) : Prop :=
  ∀ scope parent, scopes.parent? scope = some parent → parent < scope

/-- With no frame but the root, every other one lies over an older one. -/
lemma Rooted.empty : Scopes.empty.Rooted := by
  intro scope parent h
  cases scope with
  | zero => cases h
  | succ k => simp [Scopes.empty, parent?] at h

/-- Frames still lie over older ones after a change of what one of them holds. -/
lemma Rooted.modify (h : scopes.Rooted) (id : ScopeId) (f : Frame → Frame) :
    (scopes.modify id f).Rooted := by
  intro scope parent hparent
  rw [parent?_modify] at hparent
  exact h scope parent hparent

/-- Every operation keeps frames over older ones. -/
lemma Rooted.step (h : scopes.Rooted) (hstep : Step scopes scopes') : scopes'.Rooted := by
  obtain ⟨under, hunder, rfl⟩ | rfl | ⟨id, f, rfl⟩ := hstep.cases
  · intro scope parent hparent
    rcases parent?_of_push hparent with ⟨rfl, rfl⟩ | hbefore
    · exact hunder
    · exact h scope parent hbefore
  · intro scope parent hparent
    exact h scope parent (parent?_of_pop hparent)
  · exact h.modify id f

/-- **Parents are older throughout a history.** -/
lemma Reachable.rooted (h : scopes.Reachable) : scopes.Rooted := by
  induction h with
  | refl => exact .empty
  | tail _ hstep ih => exact ih.step hstep

/-! ## The way to the root -/

/-- The numbers of the frames on the way from a frame over its parents to the root. -/
inductive Leads (scopes : Scopes) : ScopeId → List ScopeId → Prop
  /-- The way from the root is the root. -/
  | root : Leads scopes rootId [rootId]
  /-- The way from another frame goes on at its parent. -/
  | up {scope parent : ScopeId} {ids : List ScopeId} (hparent : scopes.parent? scope = some parent)
      (hids : Leads scopes parent ids) : Leads scopes scope (scope :: ids)

/-- **A way leads from every frame to the root**, because parents are older. -/
lemma Rooted.exists_leads (h : scopes.Rooted) (hlive : scopes.Live scope) :
    ∃ ids, scopes.Leads scope ids := by
  induction scope using Nat.strongRecOn with
  | ind scope ih =>
    by_cases hroot : scope = rootId
    · subst hroot
      exact ⟨[rootId], .root⟩
    · obtain ⟨parent, hparent⟩ := hlive.exists_parent? hroot
      have holder : parent < scope := h scope parent hparent
      obtain ⟨ids, hids⟩ := ih parent holder (Nat.lt_trans holder hlive)
      exact ⟨scope :: ids, .up hparent hids⟩

namespace Leads

/-- There is only one way from a frame to the root. -/
lemma unique {other : List ScopeId} (h : scopes.Leads scope ids) (h' : scopes.Leads scope other) :
    ids = other := by
  induction h generalizing other with
  | root =>
    cases h' with
    | root => rfl
    | up hparent _ => cases hparent
  | up hparent _ ih =>
    cases h' with
    | root => cases hparent
    | up hparent' hids' =>
      obtain rfl : _ = _ := Option.some.inj (hparent.symm.trans hparent')
      rw [ih hids']

/-- The way from a frame begins with that frame. -/
lemma head? (h : scopes.Leads scope ids) : ids.head? = some scope := by
  cases h with
  | root => rfl
  | up _ _ => rfl

/-- The way from a frame ends at the root. -/
lemma getLast? (h : scopes.Leads scope ids) : ids.getLast? = some rootId := by
  induction h with
  | root => rfl
  | up _ _ ih => rw [List.getLast?_cons, ih, Option.getD_some]

/-- The root is on every way. -/
lemma root_mem (h : scopes.Leads scope ids) : rootId ∈ ids :=
  List.mem_of_getLast? h.getLast?

/-- No number on the way is greater than the first. -/
lemma le_of_mem (h : scopes.Leads scope ids) (hrooted : scopes.Rooted) (hid : id ∈ ids) :
    id ≤ scope := by
  induction h with
  | root => exact Nat.le_of_eq (List.mem_singleton.mp hid)
  | up hparent _ ih =>
    have holder := hrooted _ _ hparent
    rcases List.mem_cons.mp hid with rfl | hid
    · exact Nat.le_refl _
    · exact Nat.le_trans (ih hid) (Nat.le_of_lt holder)

/-- The way goes to smaller and smaller numbers. -/
lemma decreasing (h : scopes.Leads scope ids) (hrooted : scopes.Rooted) :
    ids.Pairwise (· > ·) := by
  induction h with
  | root => exact List.pairwise_singleton _ _
  | up hparent hids ih =>
    refine List.pairwise_cons.mpr ⟨fun id hid => ?_, ih⟩
    exact Nat.lt_of_le_of_lt (hids.le_of_mem hrooted hid) (hrooted _ _ hparent)

/-- All frames on the way are there. -/
lemma live_of_mem (h : scopes.Leads scope ids) (hrooted : scopes.Rooted)
    (hlive : scopes.Live scope) (hid : id ∈ ids) : scopes.Live id :=
  Nat.lt_of_le_of_lt (h.le_of_mem hrooted hid) hlive

/-- A way only depends on the links. -/
lemma congr (h : scopes.Leads scope ids) (hlinks : ∀ id, scopes'.parent? id = scopes.parent? id) :
    scopes'.Leads scope ids := by
  induction h with
  | root => exact .root
  | up hparent _ ih => exact .up ((hlinks _).trans hparent) ih

/-! ## Chains -/

/-- **A chain follows the way to the root**, if it may take as many links as the number says.

**Proof sketch.** Induction on the way. With each link the number gets smaller, and so the links
that are left suffice for the rest of the way. -/
lemma map_chainWithin (h : scopes.Leads scope ids) (hrooted : scopes.Rooted) {hops : Nat}
    (hhops : scope ≤ hops) : (scopes.chainWithin hops scope).map some = ids.map scopes.frame? := by
  induction h generalizing hops with
  | root => cases hops <;> rfl
  | @up scope parent ids hparent _ ih =>
    have holder := hrooted _ _ hparent
    cases scope with
    | zero => cases hparent
    | succ k =>
      obtain ⟨inner, hinner, rfl⟩ := Option.map_eq_some_iff.mp hparent
      cases hops with
      | zero => exact absurd hhops (Nat.not_succ_le_zero k)
      | succ hops =>
        have hrest := ih (Nat.le_of_lt_succ (Nat.lt_of_lt_of_le holder hhops))
        simp only [chainWithin, hinner, List.map_cons, hrest, frame?, Option.map_some]

/-- What is found along a chain is what the first frame on the way shows that shows anything. -/
lemma findSome?_chain (h : scopes.Leads scope ids) (hrooted : scopes.Rooted) {β : Type}
    (see : Frame → Option β) :
    (scopes.chain scope).findSome? see = ids.findSome? fun id => (scopes.frame? id).bind see := by
  calc (scopes.chain scope).findSome? see
      = ((scopes.chain scope).map some).findSome? fun frame? => frame?.bind see := by
        rw [List.findSome?_map]
        rfl
    _ = (ids.map scopes.frame?).findSome? fun frame? => frame?.bind see := by
        rw [chain, h.map_chainWithin hrooted (Nat.le_refl _)]
    _ = ids.findSome? fun id => (scopes.frame? id).bind see := by
        rw [List.findSome?_map]
        rfl

end Leads

/-! ## What single frames bind -/

/-- The value that a frame itself gives to a variable. -/
def binding? (scopes : Scopes) (scope : ScopeId) (name : String) : Option Value :=
  (scopes.frame? scope).bind fun frame => frame.vars[name]?

/-- The function that a frame itself has under a name. -/
def ownFunction? (scopes : Scopes) (scope : ScopeId) (name : String) : Option FunctionDecl :=
  (scopes.frame? scope).bind fun frame => frame.functions[name]?

/-- A frame binds a name exactly if it gives a value to it. -/
lemma hasLocal_eq_isSome_binding? (scopes : Scopes) (scope : ScopeId) (name : String) :
    scopes.hasLocal scope name = (scopes.binding? scope name).isSome := by
  unfold hasLocal binding?
  cases scopes.frame? scope with
  | none => rfl
  | some frame => exact Std.TreeMap.contains_eq_isSome_getElem?

/-- A variable is read from the first frame on the way that binds it. -/
lemma Leads.get?_eq (h : scopes.Leads scope ids) (hrooted : scopes.Rooted) (name : String) :
    scopes.get? scope name = ids.findSome? fun id => scopes.binding? id name :=
  h.findSome?_chain hrooted _

/-- A function is found in the first frame on the way that has it. -/
lemma Leads.function?_eq (h : scopes.Leads scope ids) (hrooted : scopes.Rooted) (name : String) :
    scopes.function? scope name = ids.findSome? fun id => scopes.ownFunction? id name :=
  h.findSome?_chain hrooted _

end Scopes

end DialogueScript
