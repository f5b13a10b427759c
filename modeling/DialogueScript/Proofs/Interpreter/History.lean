import DialogueScript.Proofs.Interpreter.Course
import DialogueScript.Proofs.Interpreter.UnknownFunction

set_option autoImplicit false

/-!
# History only grows

Nothing that a run does is ever taken back: reports and commands are added behind those that are
there, answers are taken from the front of those that are left, and a name that is bound in the root
or in the frame of the run stays bound, whatever happens to its value. The same holds of the names
of functions.

So a variable of the whole program that has once been declared is there for good. It does not matter
where in a run the declaration is executed, nor how the run ends, nor what else the outside world
does before it asks for something again.

## Main definitions

* `DialogueScript.Interpreter.Later` — what becomes of an interpreter in the course of time.

## Main results

* `DialogueScript.Evolves.record_grows` — reports, commands and answers.
* `DialogueScript.Evolves.hasLocal` — names of the root and of the frame of the run.
* `DialogueScript.history_grows` — all of it, and declarations for good.
-/

namespace DialogueScript

open Eval

/-! ## Bound names -/

namespace Scopes

variable {scopes other : Scopes} {id scope : ScopeId} {name : String}

/-- A change of a frame that takes no variable away takes none away from any frame. -/
lemma hasLocal_modify {f : Frame → Frame} (hf : ∀ frame : Frame,
    frame.vars.contains name = true → (f frame).vars.contains name = true)
    (h : scopes.hasLocal scope name = true) : (scopes.modify id f).hasLocal scope name = true := by
  cases scope with
  | zero =>
    cases id with
    | zero => exact hf _ h
    | succ k => exact h
  | succ k =>
    by_cases hk : k + 1 = id
    · subst hk
      simp only [hasLocal, frame?, getElem?_inner_modify_self, Option.map_map] at h ⊢
      cases hinner : scopes.inner[k]? with
      | none => simp [hinner] at h
      | some inner =>
        rw [hinner] at h
        exact hf _ h
    · simpa only [hasLocal, frame?, getElem?_inner_modify_of_ne hk] using h

/-- A name that a frame binds is still bound there after any variable is bound. -/
lemma hasLocal_define (value : Value) (bound : String) (h : scopes.hasLocal scope name = true) :
    (scopes.define id bound value).hasLocal scope name = true :=
  hasLocal_modify (fun frame hframe => by simp [Frame.define, hframe]) h

/-- A name that a frame binds is still bound there after any variable is declared. -/
lemma hasLocal_declare (value : Value) (bound : String) (h : scopes.hasLocal scope name = true) :
    (scopes.modify id fun frame => frame.declare bound value).hasLocal scope name = true :=
  hasLocal_modify (fun frame hframe => by simp [Frame.declare, hframe]) h

/-- Above the root, which names a frame binds is a matter of the frames above the root. -/
lemma hasLocal_succ_of_inner_eq {k : Nat} (h : scopes.inner = other.inner) :
    scopes.hasLocal (k + 1) name = other.hasLocal (k + 1) name := by
  simp only [hasLocal, frame?, h]

end Scopes

variable {σ : Type} [Host σ] {Called : String → Prop} {scope id : ScopeId} {name : String}

/-- **A bound name stays bound**, in the root and in the frame of the run.

**Proof sketch.** By induction on what the run does. A call changes the root by what its body does
to the root, and leaves all other frames as they were. -/
lemma Evolves.hasLocal {i j : Interpreter σ} (h : Evolves Called scope i j) :
    ∀ id, id = Scopes.rootId ∨ id = scope → i.scopes.hasLocal id name = true →
      j.scopes.hasLocal id name = true := by
  induction h with
  | refl => exact fun _ _ hi => hi
  | trans _ _ ihij ihjk => exact fun id hid hi => ihjk id hid (ihij id hid hi)
  | define _ bound value => exact fun _ _ hi => Scopes.hasLocal_define value bound hi
  | declare _ bound value => exact fun _ _ hi => Scopes.hasLocal_declare value bound hi
  | register _ => exact fun _ _ hi => Scopes.hasLocal_modify (fun _ hframe => hframe) hi
  | report _ => exact fun _ _ hi => hi
  | command _ => exact fun _ _ hi => hi
  | answer => exact fun _ _ hi => hi
  | @call scope i j params args _ hbody ih =>
    have hroot : i.scopes.hasLocal Scopes.rootId name = true →
        j.leave.scopes.hasLocal Scopes.rootId name = true := by
      intro hi
      have hentered : (i.enter params args).scopes.hasLocal Scopes.rootId name = true := by
        simpa only [Scopes.hasLocal, Scopes.frame?, Scopes.rootId, Interpreter.root_enter] using hi
      exact ih Scopes.rootId (.inl rfl) hentered
    rintro id (rfl | rfl) hi
    · exact hroot hi
    · cases id with
      | zero => exact hroot hi
      | succ k => rwa [Scopes.hasLocal_succ_of_inner_eq hbody.inner_leave]

/-! ## Records -/

/-- **Records grow**: reports and commands are added at the end, and answers are taken from the
front. -/
lemma Evolves.record_grows {i j : Interpreter BufferHost} (h : Evolves Called scope i j) :
    i.errors <+: j.errors ∧ i.host.commands <+: j.host.commands ∧
      j.host.answers <:+ i.host.answers := by
  induction h with
  | refl => exact ⟨List.prefix_rfl, List.prefix_rfl, List.suffix_rfl⟩
  | trans _ _ ihij ihjk =>
    exact ⟨ihij.1.trans ihjk.1, ihij.2.1.trans ihjk.2.1, ihjk.2.2.trans ihij.2.2⟩
  | define _ _ _ => exact ⟨List.prefix_rfl, List.prefix_rfl, List.suffix_rfl⟩
  | declare _ _ _ => exact ⟨List.prefix_rfl, List.prefix_rfl, List.suffix_rfl⟩
  | register _ => exact ⟨List.prefix_rfl, List.prefix_rfl, List.suffix_rfl⟩
  | report _ => exact ⟨List.prefix_append _ _, List.prefix_rfl, List.suffix_rfl⟩
  | command _ => exact ⟨List.prefix_rfl, List.prefix_append _ _, List.suffix_rfl⟩
  | @answer _ i =>
    obtain ⟨scopes, ⟨commands, answers⟩, errors, limit, callDepth⟩ := i
    cases answers with
    | nil => exact ⟨List.prefix_rfl, List.prefix_rfl, List.suffix_rfl⟩
    | cons answer later => exact ⟨List.prefix_rfl, List.prefix_rfl, List.suffix_cons answer later⟩
  | call _ _ ih => exact ih

/-! ## Declarations -/

/-- What becomes of an interpreter in the course of time: the outside world may change its limit,
its host and its reports and bind variables of the whole program, and it runs whatever it is asked
to run, in any scope. -/
inductive Interpreter.Later : Interpreter σ → Interpreter σ → Prop
  /-- Nothing has happened. -/
  | refl {i : Interpreter σ} : Later i i
  /-- It gets another limit. -/
  | withLimit {i j : Interpreter σ} (hj : Later i j) (limit : Nat) : Later i (j.withLimit limit)
  /-- Variables of the whole program are bound. -/
  | withGlobals {i j : Interpreter σ} (hj : Later i j) (bindings : List (String × Value)) :
      Later i (j.withGlobals bindings)
  /-- Its reports are taken away. -/
  | clearErrors {i j : Interpreter σ} (hj : Later i j) : Later i j.clearErrors
  /-- Something happens to its host. -/
  | withHost {i j : Interpreter σ} (hj : Later i j) (host : σ) : Later i { j with host := host }
  /-- A job is run. -/
  | ran {i j k : Interpreter σ} {fuel : Nat} {scope : ScopeId} {job : Job} {outcome : Outcome Unit}
      (hj : Later i j) (hrun : job.run fuel scope j = (outcome, k)) : Later i k

omit [Host σ] in
/-- A name that a frame binds is still bound there when variables of the whole program are brought
in. -/
lemma Interpreter.hasLocal_withGlobals {i : Interpreter σ} (bindings : List (String × Value))
    (h : i.scopes.hasLocal id name = true) :
    (i.withGlobals bindings).scopes.hasLocal id name = true := by
  have hset : ∀ (bindings : List (String × Value)) (scopes : Scopes),
      scopes.hasLocal id name = true → (scopes.setGlobals bindings).hasLocal id name = true := by
    intro bindings
    induction bindings with
    | nil => exact fun _ h => h
    | cons binding bindings ih => exact fun scopes h => ih _ (Scopes.hasLocal_define _ _ h)
  exact hset bindings i.scopes h

/-- Variables of the whole program stay. -/
lemma Interpreter.Later.hasLocal {i j : Interpreter σ} (h : Later i j)
    (hi : i.scopes.hasLocal Scopes.rootId name = true) :
    j.scopes.hasLocal Scopes.rootId name = true := by
  induction h with
  | refl => exact hi
  | withLimit _ _ ih => exact ih
  | withGlobals _ bindings ih => exact Interpreter.hasLocal_withGlobals bindings ih
  | clearErrors _ ih => exact ih
  | withHost _ _ ih => exact ih
  | @ran _ _ fuel _ job _ _ hrun ih =>
    exact ((job.runs fuel).evolves_any hrun).hasLocal _ (.inl rfl) ih

/-- Variables of the whole program are there at all moments of a run. -/
lemma Visits.hasLocal {m n : Moment σ} (h : Visits m n)
    (hm : m.state.scopes.hasLocal Scopes.rootId name = true) :
    n.state.scopes.hasLocal Scopes.rootId name = true := by
  refine h.invariant (P := fun i => i.scopes.hasLocal Scopes.rootId name = true)
    (fun hrun hi => hrun.hasLocal _ (.inl rfl) hi) (fun params args _ hi => ?_) hm
  simpa only [Scopes.hasLocal, Scopes.frame?, Scopes.rootId, Interpreter.root_enter] using hi

omit [Host σ] in
/-- Declaring variables of the whole program binds them. -/
lemma Scopes.hasLocal_declareGlobals (names : List String) (scopes : Scopes)
    (hname : name ∈ names) :
    (names.foldl (fun known name => known.declareGlobal name) scopes).hasLocal rootId name =
      true := by
  have hkeep : ∀ (names : List String) (scopes : Scopes), scopes.hasLocal rootId name = true →
      (names.foldl (fun known name => known.declareGlobal name) scopes).hasLocal rootId name =
        true := by
    intro names
    induction names with
    | nil => exact fun _ h => h
    | cons _ names ih => exact fun scopes h => ih _ (hasLocal_declare _ _ h)
  induction names generalizing scopes with
  | nil => cases hname
  | cons first names ih =>
    rcases List.mem_cons.mp hname with rfl | hlater
    · refine hkeep names _ ?_
      simp [hasLocal, frame?, declareGlobal, modify, rootId, Frame.declare]
    · exact ih _ hlater

/-- Variables of the whole program that are declared anywhere in a run are there when it has
ended. -/
lemma Visits.hasLocal_of_globals {m : Moment σ} {scope : ScopeId} {names : List String}
    {i : Interpreter σ} (h : Visits m ⟨scope, .statement (.globals names), i⟩)
    (hname : name ∈ names) {fuel : Nat} {outcome : Outcome Unit} {j : Interpreter σ}
    (hrun : m.job.run fuel m.scope m.state = (outcome, j)) (hends : outcome.Ends) :
    j.scopes.hasLocal Scopes.rootId name = true := by
  refine h.ends (P := fun i => i.scopes.hasLocal Scopes.rootId name = true)
    (fun hrun hi => hrun.hasLocal _ (.inl rfl) hi) (fun hi => hi) ?_ hrun hends
  intro fuel' outcome' k hdeclared hdeclaredEnds
  cases fuel' with
  | zero =>
    obtain ⟨rfl, -⟩ := Prod.mk.inj hdeclared
    exact hdeclaredEnds.elim
  | succ fuel' =>
    obtain ⟨-, rfl⟩ := Prod.mk.inj hdeclared
    exact Scopes.hasLocal_declareGlobals names i.scopes hname

/-- **History only grows.** Let a job be run, in any scope of an interpreter over a buffer, and
followed until it ends in whatever way, or for as long as one likes. The reports and commands from
before are the first ones afterwards, the answers that are left are the last ones from before, and
the names that the root and the frame of the scope bind and the functions that the root holds are
bound and held still.

If the run ends, then the variables of the whole program that are declared at any moment of it are
bound for good: they are bound at every moment of whatever is run later, in any scope, whatever the
outside world does in between.

**Proof sketch.** All of this holds of everything that a run can do (`Evolves.record_grows`,
`Evolves.hasLocal`, `Evolves.registered`). A declaration inside a run is over before the run is
(`Visits.ends`), and what it binds stays (`Interpreter.Later.hasLocal`, `Visits.hasLocal`). -/
theorem history_grows {i j : Interpreter BufferHost} {job : Job} {fuel : Nat}
    {outcome : Outcome Unit} (hrun : job.run fuel scope i = (outcome, j)) :
    (i.errors <+: j.errors ∧ i.host.commands <+: j.host.commands ∧
      j.host.answers <:+ i.host.answers ∧
      (∀ name, i.scopes.hasLocal Scopes.rootId name = true →
        j.scopes.hasLocal Scopes.rootId name = true) ∧
      (∀ name, i.scopes.hasLocal scope name = true → j.scopes.hasLocal scope name = true) ∧
      ∀ name, i.scopes.Registered name → j.scopes.Registered name) ∧
    (outcome.Ends → ∀ (m : Moment BufferHost) (names : List String),
      Visits ⟨scope, job, i⟩ m → m.job = .statement (.globals names) →
      ∀ k, j.Later k → ∀ (scope' : ScopeId) (later : Job) (n : Moment BufferHost),
        Visits ⟨scope', later, k⟩ n →
          ∀ name ∈ names, n.state.scopes.hasLocal Scopes.rootId name = true) := by
  have hevolves := (job.runs fuel).evolves_any hrun
  obtain ⟨herrors, hcommands, hanswers⟩ := hevolves.record_grows
  refine ⟨⟨herrors, hcommands, hanswers, ?_, ?_, ?_⟩, ?_⟩
  · exact fun name hi => hevolves.hasLocal _ (.inl rfl) hi
  · exact fun name hi => hevolves.hasLocal _ (.inr rfl) hi
  · exact fun name hi => hevolves.registered hi
  · rintro hends ⟨inner, _, l⟩ names hvisits rfl k hlater scope' later n hn name hname
    have hj := hvisits.hasLocal_of_globals hname hrun hends
    exact hn.hasLocal (hlater.hasLocal hj)

/-- `f` shows something, asks for an answer and calls `g`, which declares a variable of the whole
program and exits. `h` does nothing. -/
def declaringFunctions : List FunctionDecl :=
  [⟨"f", [], [.call "message" [.call "puppetevent" []], .call "g" []]⟩,
    ⟨"g", [], [.globals ["x"], .exitCode]⟩, ⟨"h", [], []⟩]

/-- The variable is declared in a call inside a call, and the exit from there takes both away. When
its reports have been cleared, the interpreter finds the variable in the body of `h`. -/
theorem history_grows_after_exit :
    ∃ (j k : Interpreter BufferHost) (m n : Moment BufferHost),
      (Job.call "f" []).run 9 Scopes.rootId
        { Interpreter.declaring 2 declaringFunctions with host := ⟨[.clearAnswers], ["?", "7"]⟩ } =
          (.exitRequested, j) ∧
      [.clearAnswers] <+: j.host.commands ∧ j.host.answers <:+ ["?", "7"] ∧
      j.host = ⟨[.clearAnswers, .designerComment "nil"], ["7"]⟩ ∧
      j.errors = [.invalidAnswer "?"] ∧ j.scopes.Registered "f" ∧
      Visits ⟨Scopes.rootId, .call "f" [],
        { Interpreter.declaring 2 declaringFunctions with
          host := ⟨[.clearAnswers], ["?", "7"]⟩ }⟩ m ∧
      m.job = .statement (.globals ["x"]) ∧ j.Later k ∧ k.errors = [] ∧
      Visits ⟨Scopes.rootId, .call "h" [], k⟩ n ∧ n.job = .block [] ∧
      n.state.scopes.hasLocal Scopes.rootId "x" = true := by
  let i : Interpreter BufferHost :=
    { Interpreter.declaring 2 declaringFunctions with host := ⟨[.clearAnswers], ["?", "7"]⟩ }
  obtain ⟨j, hrun, hhost, herrors, hh, hdepth⟩ : ∃ j, (Job.call "f" []).run 9 Scopes.rootId i =
      (.exitRequested, j) ∧ j.host = ⟨[.clearAnswers, .designerComment "nil"], ["7"]⟩ ∧
      j.errors = [.invalidAnswer "?"] ∧
      j.scopes.function? Scopes.rootId "h" = some ⟨"h", [], []⟩ ∧ j.callDepth < j.limit :=
    ⟨_, rfl, rfl, rfl, rfl, by decide⟩
  -- The way inwards: the body of `f`, what follows its first statement, and the body of `g`.
  obtain ⟨l, hfirst, hg, hroom⟩ : ∃ l, execute 9 1 (.call "message" [.call "puppetevent" []])
      (i.enter [] []) = (.done .normal, l) ∧
      l.scopes.function? 1 "g" = some ⟨"g", [], [.globals ["x"], .exitCode]⟩ ∧
      l.callDepth < l.limit := ⟨_, rfl, rfl, by decide⟩
  have hdeclF : i.scopes.function? Scopes.rootId "f" =
      some ⟨"f", [], [.call "message" [.call "puppetevent" []], .call "g" []]⟩ := rfl
  have hbodyF : Visits ⟨Scopes.rootId, .call "f" [], i⟩
      ⟨1, .block [.call "message" [.call "puppetevent" []], .call "g" []], i.enter [] []⟩ :=
    .single (.body hdeclF (by decide))
  have hcallG : Visits ⟨Scopes.rootId, .call "f" [], i⟩ ⟨1, .call "g" [], l⟩ :=
    .tail (.tail (.tail hbodyF (.later hfirst)) .first)
      (.callee rfl (rfl : valuesOf (evaluate 0 1) [] _ = _))
  have hglobals := (hcallG.tail (.body hg hroom)).tail .first
  have hdeclH : j.clearErrors.scopes.function? Scopes.rootId "h" = some ⟨"h", [], []⟩ := hh
  have hbodyH : Visits ⟨Scopes.rootId, .call "h" [], j.clearErrors⟩
      ⟨j.scopes.depth, .block [], j.clearErrors.enter [] []⟩ := .single (.body hdeclH hdepth)
  obtain ⟨⟨-, hcommands, hanswers, -, -, hfunctions⟩, hdeclared⟩ := history_grows hrun
  exact ⟨j, j.clearErrors, _, _, hrun, hcommands, hanswers, hhost, herrors, hfunctions "f" rfl,
    hglobals, rfl, .clearErrors .refl, rfl, hbodyH, rfl,
    hdeclared trivial _ ["x"] hglobals rfl _ (.clearErrors .refl) _ _ _ hbodyH "x" (by simp)⟩

end DialogueScript
