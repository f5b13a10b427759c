import DialogueScript.Proofs.Scope.Chains

set_option autoImplicit false

/-!
# Scopes stay in order

Whatever operations are made on scopes, one after the other, the frames remain a tree over the root,
readers find what the nearest frame binds, and what is listed is what is found: each name once, in
increasing order. A frame that gets the number of an earlier one has nothing of it.

## Main definitions

* `DialogueScript.Scopes.Orderly` — what order means.

## Main results

* `DialogueScript.Scopes.mem_functionNames` — a function is listed exactly if it is found.
* `DialogueScript.scopes_stay_orderly` — order after any operations.
-/

namespace DialogueScript

namespace Scopes

variable {scopes : Scopes} {scope : ScopeId} {name : String}

/-! ## Listings -/

/-- The order in which names are kept is that of texts. -/
lemma lt_of_compare_eq_lt {a b : String} (h : compare a b = .lt) : a < b :=
  compareOfLessAndEq_eq_lt.mp h

/-- The names of the listed variables increase. -/
lemma globals_increasing (scopes : Scopes) :
    scopes.globals.Pairwise fun first second => first.1 < second.1 :=
  Std.TreeMap.ordered_keys_toList.imp lt_of_compare_eq_lt

/-- A variable is listed with its value. -/
lemma mem_globals {value : Value} :
    (name, value) ∈ scopes.globals ↔ scopes.global? name = some value :=
  Std.TreeMap.mem_toList_iff_getElem?_eq_some

/-- The listed functions increase. -/
lemma functionNames_increasing (scopes : Scopes) (scope : ScopeId) :
    (scopes.functionNames scope).Pairwise (· < ·) :=
  Std.TreeSet.ordered_toList.imp lt_of_compare_eq_lt

/-- **A function is listed exactly if it is found**, wherever on the chain it is registered. -/
lemma mem_functionNames :
    name ∈ scopes.functionNames scope ↔ (scopes.function? scope name).isSome = true := by
  have hkey : ∀ frame : Frame,
      name ∈ frame.functions.keys ↔ (frame.functions[name]?).isSome = true := by
    intro frame
    rw [Std.TreeMap.mem_keys, Std.TreeMap.mem_iff_isSome_getElem?]
  rw [functionNames, Std.TreeSet.mem_toList, Std.TreeSet.mem_ofList, List.contains_iff_mem,
    List.mem_flatMap, function?, List.findSome?_isSome_iff]
  exact exists_congr fun frame => and_congr_right fun _ => hkey frame

/-! ## New frames -/

/-- There is a frame with the number, and it binds no variable and no function. -/
structure Blank (scopes : Scopes) (scope : ScopeId) : Prop where
  /-- The frame is there. -/
  live : scopes.Live scope
  /-- It binds no variable. -/
  binding? : ∀ name, scopes.binding? scope name = none
  /-- It has no function. -/
  ownFunction? : ∀ name, scopes.ownFunction? scope name = none

/-- A new frame gets the next number and binds nothing. -/
lemma blank_push (scopes : Scopes) (parent : ScopeId) :
    (scopes.push parent).Blank scopes.depth := by
  have hframe : (scopes.push parent).frame? scopes.depth = some Frame.empty := by
    simp only [depth, frame?, push, Array.getElem?_push_size, Option.map_some]
  refine ⟨?_, fun name => ?_, fun name => ?_⟩
  · show scopes.depth < (scopes.push parent).inner.size + 1
    rw [size_inner_push]
    exact Nat.lt_succ_self _
  · simp [Scopes.binding?, hframe, Frame.empty]
  · simp [Scopes.ownFunction?, hframe, Frame.empty]

/-- Popping a frame other than the root makes its number the next one to be given. -/
lemma depth_pop {popped : ScopeId} (hroot : popped ≠ rootId) (h : scopes.depth = popped + 1) :
    scopes.pop.depth = popped := by
  have hsize : scopes.inner.size = popped := Nat.succ.inj h
  have hpos : 0 < popped := Nat.pos_of_ne_zero hroot
  rw [depth, size_inner_pop, hsize]
  exact Nat.sub_add_cancel hpos

/-! ## Order -/

/-- What order among scopes means. -/
structure Orderly (scopes : Scopes) : Prop where
  /-- The root is there. -/
  root : ∃ frame, scopes.frame? rootId = some frame
  /-- The root has no parent. -/
  root_parent : scopes.parent? rootId = none
  /-- Every other frame has a parent with a smaller number. -/
  parent : ∀ scope, scopes.Live scope → scope ≠ rootId →
    ∃ parent, scopes.parent? scope = some parent ∧ parent < scope
  /-- One way leads from each frame over parents to the root, by frames that are there and to
  smaller and smaller numbers. -/
  way : ∀ scope, scopes.Live scope → ∃ ids, scopes.Leads scope ids ∧
    ids.head? = some scope ∧ ids.Pairwise (· > ·) ∧ ids.getLast? = some rootId ∧
    (∀ id ∈ ids, scopes.Live id) ∧ ∀ other, scopes.Leads scope other → other = ids
  /-- A variable has the value that the first frame on the way binds, if there is one. -/
  get : ∀ scope ids, scopes.Live scope → scopes.Leads scope ids → ∀ name value,
    scopes.get? scope name = some value ↔ ∃ before id after, ids = before ++ id :: after ∧
      scopes.binding? id name = some value ∧ ∀ nearer ∈ before, scopes.binding? nearer name = none
  /-- A name stands for the function that the first frame on the way has, if there is one. -/
  function : ∀ scope ids, scopes.Live scope → scopes.Leads scope ids → ∀ name decl,
    scopes.function? scope name = some decl ↔ ∃ before id after, ids = before ++ id :: after ∧
      scopes.ownFunction? id name = some decl ∧
      ∀ nearer ∈ before, scopes.ownFunction? nearer name = none
  /-- The functions that can be found from a frame are listed once each, in increasing order. -/
  functionNames : ∀ scope, scopes.Live scope →
    (scopes.functionNames scope).Pairwise (· < ·) ∧
      ∀ name, name ∈ scopes.functionNames scope ↔ ∃ decl, scopes.function? scope name = some decl
  /-- The variables of the whole program are listed with their values, in increasing order. -/
  globals : (scopes.globals.Pairwise fun first second => first.1 < second.1) ∧
    ∀ name value, (name, value) ∈ scopes.globals ↔ scopes.global? name = some value
  /-- A new frame binds nothing. -/
  push : ∀ parent, scopes.Live parent → (scopes.push parent).Blank scopes.depth
  /-- Where the newest frame is popped and another one is pushed, that gets the old number
  and binds nothing. -/
  reuse : ∀ popped parent, popped ≠ rootId → scopes.depth = popped + 1 → scopes.pop.Live parent →
    ¬ scopes.pop.Live popped ∧ (scopes.pop.push parent).Blank popped

end Scopes

open Scopes

/-- **Scopes stay in order**, whatever operations are made on them in whatever order, as long as a
frame is pushed over one that is there and all else is done to frames that are there.

**Proof sketch.** Each operation keeps parents older than their children (`Rooted.step`), so there
is a way to the root from every frame (`Rooted.exists_leads`), which the chain follows
(`Leads.findSome?_chain`). The rest holds of any scopes. -/
theorem scopes_stay_orderly {scopes : Scopes} (h : scopes.Reachable) : scopes.Orderly where
  root := ⟨scopes.root, rfl⟩
  root_parent := rfl
  parent := by
    intro scope hlive hroot
    obtain ⟨parent, hparent⟩ := hlive.exists_parent? hroot
    exact ⟨parent, hparent, h.rooted scope parent hparent⟩
  way := by
    intro scope hlive
    obtain ⟨ids, hids⟩ := h.rooted.exists_leads hlive
    exact ⟨ids, hids, hids.head?, hids.decreasing h.rooted, hids.getLast?,
      fun id hid => hids.live_of_mem h.rooted hlive hid, fun other hother => hother.unique hids⟩
  get := by
    intro scope ids _ hids name value
    rw [hids.get?_eq h.rooted, List.findSome?_eq_some_iff]
  function := by
    intro scope ids _ hids name decl
    rw [hids.function?_eq h.rooted, List.findSome?_eq_some_iff]
  functionNames := by
    intro scope _
    refine ⟨functionNames_increasing scopes scope, fun name => ?_⟩
    rw [mem_functionNames, Option.isSome_iff_exists]
  globals := ⟨globals_increasing scopes, fun _ _ => mem_globals⟩
  push := fun parent _ => blank_push scopes parent
  reuse := by
    intro popped parent hroot hdepth _
    have hpop : scopes.pop.depth = popped := depth_pop hroot hdepth
    refine ⟨fun hlive => ?_, hpop ▸ blank_push scopes.pop parent⟩
    rw [Live, hpop] at hlive
    exact Nat.lt_irrefl popped hlive

/-- Scopes during a call that has bound a variable and registered a function in its own frame. -/
def Scopes.duringCall : Scopes :=
  (((Scopes.empty.setGlobal "phase" (.integer 1)).push rootId).define 1 "x" .nil).defineFunction 1
    ⟨"f", [], []⟩

/-- The frame of the next call has the number of this call's frame and nothing of what that
holds. -/
theorem scopes_stay_orderly_next_call :
    Scopes.duringCall.Reachable ∧ Scopes.duringCall.hasLocal 1 "x" = true ∧
      Scopes.duringCall.functionNames 1 = ["f"] ∧ (Scopes.duringCall.pop.push rootId).Blank 1 := by
  have hreachable : Scopes.duringCall.Reachable := by
    refine Relation.ReflTransGen.tail ?_ (.defineFunction (by decide) _)
    refine Relation.ReflTransGen.tail ?_ (.define (by decide) _ _)
    refine Relation.ReflTransGen.tail ?_ (.push (by decide))
    exact Relation.ReflTransGen.single (.setGlobal _ _)
  have horderly := scopes_stay_orderly hreachable
  exact ⟨hreachable, by decide, by decide,
    (horderly.reuse 1 rootId (by decide) (by decide) (by decide)).2⟩

end DialogueScript
