import DialogueScript.Proofs.Scope.Chains

set_option autoImplicit false

/-!
# Who sees an assignment

Readers walk along a whole chain, and an assignment does not: it goes to the root if the root binds
the name, and otherwise to the frame that makes it. So the frame that is written need not be the one
from which the name is read. A reader sees the new value exactly if the written frame is the first
one on its chain that binds the name, and everything else it sees is as before.

An assignment changes a single binding of a single frame (`DialogueScript.Scopes.binding?_assign`).
What readers find is then a matter of which frame comes first
(`DialogueScript.Scopes.findSome?_of_eq`, `DialogueScript.Scopes.findSome?_of_ne`).

## Main definitions

* `DialogueScript.Scopes.assignee` — the frame that an assignment writes.
* `DialogueScript.Scopes.Hidden` — a frame in front of the root binds the name.
* `DialogueScript.Scopes.Assigned` — what is changed by an assignment and what is not.

## Main results

* `DialogueScript.Scopes.binding?_assign` — the bindings of single frames.
* `DialogueScript.assignment_seen_by_readers` — what every reader sees.
-/

namespace DialogueScript

namespace Scopes

variable {scopes after : Scopes} {s t id : ScopeId} {ids : List ScopeId} {name : String}
  {value : Value}

/-! ## The frame that is written -/

/-- The frame to which an assignment goes: the root if the root binds the name, and otherwise the
frame that makes it. -/
def assignee (scopes : Scopes) (s : ScopeId) (name : String) : ScopeId :=
  if scopes.hasLocal rootId name then rootId else s

/-- An assignment binds the variable in the frame to which it goes. -/
lemma assign_eq (scopes : Scopes) (s : ScopeId) (name : String) (value : Value) :
    scopes.assign s name value = scopes.define (scopes.assignee s name) name value := by
  have hroot : scopes.hasLocal rootId name = scopes.root.vars.contains name := rfl
  unfold assign assignee
  rw [hroot]
  by_cases h : scopes.root.vars.contains name = true
  · rw [if_pos h, if_pos h]
  · rw [if_neg h, if_neg h]

/-- The frame to which an assignment goes is there. -/
lemma live_assignee (hs : scopes.Live s) (name : String) :
    scopes.Live (scopes.assignee s name) := by
  unfold assignee
  split
  · exact Nat.succ_pos _
  · exact hs

/-- Binding a variable changes that binding of that frame and no other. -/
lemma binding?_define (hid : scopes.Live id) (name : String) (value : Value) (other : ScopeId)
    (var : String) :
    (scopes.define id name value).binding? other var =
      if other = id ∧ var = name then some value else scopes.binding? other var := by
  unfold binding? define
  rw [frame?_modify]
  by_cases hother : id = other
  · subst hother
    obtain ⟨frame, hframe⟩ := hid.exists_frame?
    simp only [if_true, hframe, Option.map_some, Option.bind_some, Frame.define,
      Std.TreeMap.getElem?_insert, true_and, Std.LawfulEqCmp.compare_eq_iff_eq]
    by_cases hvar : name = var
    · rw [if_pos hvar, if_pos hvar.symm]
    · rw [if_neg hvar, if_neg (Ne.symm hvar)]
  · rw [if_neg hother, if_neg fun h => hother h.1.symm]

/-- **An assignment changes a single binding of a single frame.** -/
lemma binding?_assign (hs : scopes.Live s) (name : String) (value : Value) (id : ScopeId)
    (var : String) :
    (scopes.assign s name value).binding? id var =
      if id = scopes.assignee s name ∧ var = name then some value else scopes.binding? id var := by
  rw [assign_eq]
  exact binding?_define (live_assignee hs name) name value id var

/-- The frame to which an assignment goes has the value afterwards. -/
lemma binding?_assign_self (hs : scopes.Live s) (name : String) (value : Value) :
    (scopes.assign s name value).binding? (scopes.assignee s name) name = some value := by
  rw [binding?_assign hs, if_pos ⟨rfl, rfl⟩]

/-- No other frame has another value after an assignment. -/
lemma binding?_assign_of_ne (hs : scopes.Live s) (value : Value)
    (hid : id ≠ scopes.assignee s name) :
    (scopes.assign s name value).binding? id name = scopes.binding? id name := by
  rw [binding?_assign hs, if_neg fun h => hid h.1]

/-- An assignment does not change which frame lies over which. -/
lemma parent?_assign (scopes : Scopes) (s : ScopeId) (name : String) (value : Value)
    (id : ScopeId) : (scopes.assign s name value).parent? id = scopes.parent? id := by
  rw [assign_eq]
  exact parent?_modify scopes _ id _

/-- No frame but the one that is written changes. -/
lemma frame?_assign_of_ne (value : Value) (hid : id ≠ scopes.assignee s name) :
    (scopes.assign s name value).frame? id = scopes.frame? id := by
  rw [assign_eq, define, frame?_modify, if_neg (Ne.symm hid)]

/-- An assignment does not change the functions of any frame. -/
lemma functions_assign (scopes : Scopes) (s : ScopeId) (name : String) (value : Value)
    (id : ScopeId) :
    ((scopes.assign s name value).frame? id).map Frame.functions =
      (scopes.frame? id).map Frame.functions := by
  rw [assign_eq, define, frame?_modify]
  split
  · rw [Option.map_map]
    rfl
  · rfl

/-! ## Which frame comes first -/

section Order

variable {old new : ScopeId → Option Value} {target : ScopeId}

/-- Where the written frame is the first to bind the name, its value is read. -/
lemma findSome?_of_eq (htarget : new target = some value)
    (hfirst : ids.find? (fun id => (new id).isSome) = some target) :
    ids.findSome? new = some value := by
  obtain ⟨-, before, after, rfl, hbefore⟩ := List.find?_eq_some_iff_append.mp hfirst
  refine List.findSome?_eq_some_iff.mpr ⟨before, target, after, rfl, htarget, fun id hid => ?_⟩
  simpa using hbefore id hid

/-- Where another frame is the first to bind the name, or there is none, the same is read as if
nothing had been written. -/
lemma findSome?_of_ne (hsame : ∀ id, id ≠ target → new id = old id)
    (htarget : (new target).isSome = true)
    (hfirst : ids.find? (fun id => (new id).isSome) ≠ some target) :
    ids.findSome? new = ids.findSome? old := by
  induction ids with
  | nil => rfl
  | cons id ids ih =>
    have hid : id ≠ target := by
      rintro rfl
      exact hfirst (List.find?_cons_of_pos htarget)
    rw [List.findSome?_cons, List.findSome?_cons, hsame id hid]
    cases hold : old id with
    | some found => rfl
    | none =>
      have hnone : ¬ (new id).isSome = true := by
        rw [hsame id hid, hold]
        exact Bool.false_ne_true
      rw [List.find?_cons_of_neg (p := fun id => (new id).isSome) hnone] at hfirst
      exact ih hfirst

end Order

/-- A frame in front of the root binds the name. -/
def Hidden (scopes : Scopes) (ids : List ScopeId) (name : String) : Prop :=
  ∃ id ∈ ids, id ≠ rootId ∧ scopes.hasLocal id name = true

/-- The frame is the first of some that binds the name. -/
def First (scopes : Scopes) (ids : List ScopeId) (name : String) (id : ScopeId) : Prop :=
  ids.find? (fun id => scopes.hasLocal id name) = some id

/-- On a way, the root is the first frame that binds a name exactly if it binds the name and no
frame in front of it does. -/
lemma first_root_iff (hids : scopes.Leads t ids) (hrooted : scopes.Rooted)
    (hroot : after.hasLocal rootId name = true) :
    after.First ids name rootId ↔ ¬ after.Hidden ids name := by
  constructor
  · rintro hfirst ⟨id, hid, hne, hlocal⟩
    obtain ⟨-, before, behind, rfl, hbefore⟩ := List.find?_eq_some_iff_append.mp hfirst
    have hdecreasing := (List.pairwise_append.mp (hids.decreasing hrooted)).2.1
    rcases List.mem_append.mp hid with hmem | hmem
    · exact absurd hlocal (by simpa using hbefore id hmem)
    · rcases List.mem_cons.mp hmem with rfl | hmem
      · exact hne rfl
      · exact absurd (List.rel_of_pairwise_cons hdecreasing hmem) (Nat.not_lt_zero id)
  · intro hhidden
    cases hfind : ids.find? (fun id => after.hasLocal id name) with
    | none =>
      have hnone := List.find?_eq_none.mp hfind rootId hids.root_mem
      exact absurd hroot hnone
    | some id =>
      have hlocal := List.find?_some (p := fun id => after.hasLocal id name) hfind
      by_cases hid : id = rootId
      · exact hid ▸ hfind
      · exact absurd ⟨id, List.mem_of_find?_eq_some hfind, hid, hlocal⟩ hhidden

/-- The frame that makes an assignment comes first on its own way, so that it is the first to bind
the name once it binds it. -/
lemma first_self (hids : scopes.Leads s ids) (hlocal : after.hasLocal s name = true) :
    after.First ids name s := by
  unfold First
  cases hids with
  | root => exact List.find?_cons_of_pos hlocal
  | up _ _ => exact List.find?_cons_of_pos hlocal

/-! ## What a reader sees -/

/-- Frames still lie over older ones after an assignment. -/
lemma Rooted.assign (h : scopes.Rooted) (s : ScopeId) (name : String) (value : Value) :
    (scopes.assign s name value).Rooted := by
  rw [assign_eq]
  exact h.modify _ _

/-- The way to the root is the same after an assignment. -/
lemma Leads.assign (h : scopes.Leads t ids) (s : ScopeId) (name : String) (value : Value) :
    (scopes.assign s name value).Leads t ids :=
  h.congr (parent?_assign scopes s name value)

/-- Where the written frame is the first to bind the name, a reader finds the value. -/
lemma get?_assign_of_first (hrooted : scopes.Rooted) (hs : scopes.Live s)
    (hids : scopes.Leads t ids)
    (hfirst : (scopes.assign s name value).First ids name (scopes.assignee s name)) :
    (scopes.assign s name value).get? t name = some value := by
  simp only [First, hasLocal_eq_isSome_binding?] at hfirst
  rw [(hids.assign s name value).get?_eq (hrooted.assign s name value)]
  exact findSome?_of_eq (binding?_assign_self hs name value) hfirst

/-- Where it is not, a reader finds what it found before. -/
lemma get?_assign_of_not_first (hrooted : scopes.Rooted) (hs : scopes.Live s)
    (hids : scopes.Leads t ids)
    (hfirst : ¬ (scopes.assign s name value).First ids name (scopes.assignee s name)) :
    (scopes.assign s name value).get? t name = scopes.get? t name := by
  have hwritten : ((scopes.assign s name value).binding? (scopes.assignee s name) name).isSome =
      true := by
    rw [binding?_assign_self hs, Option.isSome_some]
  simp only [First, hasLocal_eq_isSome_binding?] at hfirst
  rw [(hids.assign s name value).get?_eq (hrooted.assign s name value), hids.get?_eq hrooted]
  exact findSome?_of_ne (fun id hid => binding?_assign_of_ne hs value hid) hwritten hfirst

/-- Other names are read as before. -/
lemma get?_assign_of_ne (hrooted : scopes.Rooted) (hs : scopes.Live s) (hids : scopes.Leads t ids)
    (value : Value) {var : String} (hvar : var ≠ name) :
    (scopes.assign s name value).get? t var = scopes.get? t var := by
  have hsame : ∀ id, (scopes.assign s name value).binding? id var = scopes.binding? id var := by
    intro id
    rw [binding?_assign hs, if_neg fun h => hvar h.2]
  rw [(hids.assign s name value).get?_eq (hrooted.assign s name value), hids.get?_eq hrooted]
  simp only [hsame]

/-! ## The two cases -/

section Global

variable (hroot : scopes.hasLocal rootId name = true)

include hroot

/-- If the root binds the name, the assignment goes to the root. -/
lemma assignee_of_root (s : ScopeId) : scopes.assignee s name = rootId := if_pos hroot

/-- An assignment to the root hides nothing and uncovers nothing. -/
lemma hidden_assign_iff (hs : scopes.Live s) (value : Value) (ids : List ScopeId) :
    (scopes.assign s name value).Hidden ids name ↔ scopes.Hidden ids name := by
  refine exists_congr fun id => and_congr_right fun _ => and_congr_right fun hid => ?_
  rw [hasLocal_eq_isSome_binding?, hasLocal_eq_isSome_binding?, binding?_assign_of_ne hs]
  rw [assignee_of_root hroot]
  exact hid

/-- The root is the first to bind the name after the assignment exactly if nothing hides it. -/
lemma first_assignee_iff (hrooted : scopes.Rooted) (hs : scopes.Live s)
    (hids : scopes.Leads t ids) (value : Value) :
    (scopes.assign s name value).First ids name (scopes.assignee s name) ↔
      ¬ scopes.Hidden ids name := by
  have hlocal : (scopes.assign s name value).hasLocal rootId name = true := by
    have hwritten := binding?_assign_self hs name value
    rw [assignee_of_root hroot] at hwritten
    rw [hasLocal_eq_isSome_binding?, hwritten, Option.isSome_some]
  rw [assignee_of_root hroot, first_root_iff hids hrooted hlocal, hidden_assign_iff hroot hs]

end Global

/-- If the root does not bind the name, the assignment goes to the frame that makes it. -/
lemma assignee_of_not_root (hroot : scopes.hasLocal rootId name = false) (s : ScopeId) :
    scopes.assignee s name = s :=
  if_neg (by rw [hroot]; exact Bool.false_ne_true)

/-- What an assignment of a value to a name, made from a frame, changes, and what it does not. -/
structure Assigned (scopes after : Scopes) (s : ScopeId) (name : String) (value : Value) :
    Prop where
  /-- No link changes. -/
  links : ∀ id, after.parent? id = scopes.parent? id
  /-- No function table changes. -/
  functions : ∀ id, (after.frame? id).map Frame.functions = (scopes.frame? id).map Frame.functions
  /-- Every reader finds the other names as before. -/
  others : ∀ t, scopes.Live t → ∀ other, other ≠ name → after.get? t other = scopes.get? t other
  /-- If the root binds the name, it binds the value now. -/
  global : scopes.hasLocal rootId name = true → after.global? name = some value
  /-- Then no other frame changes, -/
  global_frames : scopes.hasLocal rootId name = true →
    ∀ id, id ≠ rootId → after.frame? id = scopes.frame? id
  /-- a reader from whom no frame hides the root's variable finds the value, -/
  global_seen : scopes.hasLocal rootId name = true → ∀ t ids, scopes.Live t → scopes.Leads t ids →
    ¬ scopes.Hidden ids name → after.get? t name = some value
  /-- and every other reader finds what it found before. -/
  global_hidden : scopes.hasLocal rootId name = true → ∀ t ids, scopes.Live t →
    scopes.Leads t ids → scopes.Hidden ids name → after.get? t name = scopes.get? t name
  /-- If the root does not bind the name, the frame itself binds the value now. -/
  own : scopes.hasLocal rootId name = false → after.binding? s name = some value
  /-- Then no other frame changes, -/
  own_frames : scopes.hasLocal rootId name = false →
    ∀ id, id ≠ s → after.frame? id = scopes.frame? id
  /-- a reader for whom the frame is the first one that binds the name finds the value, -/
  own_seen : scopes.hasLocal rootId name = false → ∀ t ids, scopes.Live t → scopes.Leads t ids →
    after.First ids name s → after.get? t name = some value
  /-- and every other reader finds what it found before. -/
  own_hidden : scopes.hasLocal rootId name = false → ∀ t ids, scopes.Live t →
    scopes.Leads t ids → ¬ after.First ids name s → after.get? t name = scopes.get? t name
  /-- The frame that makes the assignment reads the value, unless the name is bound in the root and
  in a frame in front of it. -/
  read : ∀ ids, scopes.Leads s ids →
    ¬ (scopes.hasLocal rootId name = true ∧ scopes.Hidden ids name) → after.lookup s name = value
  /-- In that case it reads what it read before. -/
  unread : ∀ ids, scopes.Leads s ids → scopes.hasLocal rootId name = true →
    scopes.Hidden ids name → after.lookup s name = scopes.lookup s name

end Scopes

open Scopes

/-- **Who sees an assignment.** It changes one binding of one frame and nothing else. A reader finds
the new value exactly if the frame that is written comes first among those on its chain that bind
the name, and otherwise finds what it found before. So the frame that makes the assignment reads the
value back, unless the name is bound in the root and in a frame in front of the root.

**Proof sketch.** A reader finds what the first frame on its way to the root binds
(`Leads.get?_eq`), and only one binding is new (`binding?_assign`). If that is the root's, the root
comes first exactly where nothing hides it, because it is the last frame on every way
(`first_assignee_iff`). -/
theorem assignment_seen_by_readers {scopes : Scopes} (hreachable : scopes.Reachable) {s : ScopeId}
    (hs : scopes.Live s) (name : String) (value : Value) :
    scopes.Assigned (scopes.assign s name value) s name value := by
  have hrooted := hreachable.rooted
  have hwritten := binding?_assign_self hs name value
  have hglobal : scopes.hasLocal rootId name = true → ∀ t ids, scopes.Leads t ids →
      ¬ scopes.Hidden ids name → (scopes.assign s name value).get? t name = some value :=
    fun hroot t ids hids hhidden => get?_assign_of_first hrooted hs hids
      ((first_assignee_iff hroot hrooted hs hids value).mpr hhidden)
  have hcovered : scopes.hasLocal rootId name = true → ∀ t ids, scopes.Leads t ids →
      scopes.Hidden ids name → (scopes.assign s name value).get? t name = scopes.get? t name :=
    fun hroot t ids hids hhidden => get?_assign_of_not_first hrooted hs hids fun hfirst =>
      (first_assignee_iff hroot hrooted hs hids value).mp hfirst hhidden
  refine
    { links := parent?_assign scopes s name value
      functions := functions_assign scopes s name value
      others := ?others
      global := ?global
      global_frames := ?globalFrames
      global_seen := fun hroot t ids _ => hglobal hroot t ids
      global_hidden := fun hroot t ids _ => hcovered hroot t ids
      own := ?own
      own_frames := ?ownFrames
      own_seen := ?ownSeen
      own_hidden := ?ownHidden
      read := ?read
      unread := ?unread }
  case others =>
    intro t ht other hother
    obtain ⟨ids, hids⟩ := hrooted.exists_leads ht
    exact get?_assign_of_ne hrooted hs hids value hother
  case global =>
    intro hroot
    rw [assignee_of_root hroot] at hwritten
    exact hwritten
  case globalFrames =>
    intro hroot id hid
    refine frame?_assign_of_ne value ?_
    rw [assignee_of_root hroot]
    exact hid
  case own =>
    intro hroot
    rwa [assignee_of_not_root hroot] at hwritten
  case ownFrames =>
    intro hroot id hid
    refine frame?_assign_of_ne value ?_
    rw [assignee_of_not_root hroot]
    exact hid
  case ownSeen =>
    intro hroot t ids _ hids hfirst
    refine get?_assign_of_first hrooted hs hids ?_
    rwa [assignee_of_not_root hroot]
  case ownHidden =>
    intro hroot t ids _ hids hfirst
    refine get?_assign_of_not_first hrooted hs hids ?_
    rwa [assignee_of_not_root hroot]
  case read =>
    intro ids hids hnot
    have hget : (scopes.assign s name value).get? s name = some value := by
      cases hroot : scopes.hasLocal rootId name with
      | true => exact hglobal hroot s ids hids fun hhidden => hnot ⟨hroot, hhidden⟩
      | false =>
        refine get?_assign_of_first hrooted hs hids ?_
        rw [assignee_of_not_root hroot] at hwritten ⊢
        refine first_self hids ?_
        rw [hasLocal_eq_isSome_binding?, hwritten, Option.isSome_some]
    rw [lookup, hget, Option.getD_some]
  case unread =>
    intro ids hids hroot hhidden
    rw [lookup, lookup, hcovered hroot s ids hids hhidden]

/-- Scopes in which a call has declared a variable of its own under the name of a global one. -/
def Scopes.shadowing : Scopes :=
  ((Scopes.empty.setGlobal "phase" (.integer 3)).push rootId).declareLocal 1 "phase"

/-- The call's assignment goes to the root, where readers from the root find it, and the call itself
goes on reading its own variable. -/
theorem assignment_seen_by_readers_shadowing :
    Scopes.shadowing.Reachable ∧ Scopes.shadowing.Live 1 ∧
      (Scopes.shadowing.assign 1 "phase" (.integer 5)).get? rootId "phase" = some (.integer 5) ∧
      (Scopes.shadowing.assign 1 "phase" (.integer 5)).lookup 1 "phase" =
        Scopes.shadowing.lookup 1 "phase" ∧
      Scopes.shadowing.lookup 1 "phase" = .integer 0 := by
  have hreachable : Scopes.shadowing.Reachable := by
    refine Relation.ReflTransGen.tail ?_ (.declareLocal (by decide) _)
    refine Relation.ReflTransGen.tail ?_ (.push (by decide))
    exact Relation.ReflTransGen.single (.setGlobal _ _)
  have hlive : Scopes.shadowing.Live 1 := by decide
  have hassigned := assignment_seen_by_readers hreachable hlive "phase" (.integer 5)
  refine ⟨hreachable, hlive, ?_, ?_, rfl⟩
  · refine hassigned.global_seen (by decide) rootId [rootId] (by decide) .root ?_
    rintro ⟨id, hid, hne, -⟩
    exact hne (List.mem_singleton.mp hid)
  · exact hassigned.unread [1, rootId] (.up rfl .root) (by decide)
      ⟨1, List.mem_cons_self, by decide, by decide⟩

end DialogueScript
