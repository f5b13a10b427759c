import DialogueScript.Proofs.Interpreter.Simulation

set_option autoImplicit false

/-!
# Hosts that runs cannot tell apart

A run deals with its host in two ways only: it shows commands and asks for answers. Two hosts are
therefore as good as each other for every run if they give the same answers, up to the blanks around
them, now and after any dealings. Interpreters over such hosts complete the same scripts and calls,
with the same outcomes, and differ in nothing but their hosts afterwards.

A host can be made to keep a record of its dealings. To a run it is the same host.

## Main definitions

* `DialogueScript.Host.Bisimulation` — relations between hosts that dealings keep.
* `DialogueScript.Interpreter.Over` — interpreters that differ in related hosts only.
* `DialogueScript.Interpreter.Completes` — a script and calls after it, with their outcomes.
* `DialogueScript.Recorded` — a host with a record of its dealings.

## Main results

* `DialogueScript.simulation_over` — runs over related hosts are alike.
* `DialogueScript.Interpreter.Completes.over` — so are scripts with calls after them.
* `DialogueScript.Recorded.bisimulation`, `DialogueScript.Interpreter.completes_iff_recorded` — a
  record changes nothing.
-/

namespace DialogueScript

open Eval

variable {σ τ : Type}

/-! ## Related hosts -/

/-- A relation between hosts that all dealings with them keep. A script gets the same of the answers
of related hosts. -/
structure Host.Bisimulation [Host σ] [Host τ] (H : σ → τ → Prop) : Prop where
  /-- A command is shown. -/
  execute : ∀ {a : σ} {b : τ}, H a b → ∀ command,
    H (Host.execute command a) (Host.execute command b)
  /-- The answers have the same text. -/
  answer : ∀ {a : σ} {b : τ}, H a b →
    answerText (Host.readAnswer b).1 = answerText (Host.readAnswer a).1
  /-- An answer has been asked for. -/
  next : ∀ {a : σ} {b : τ}, H a b → H (Host.readAnswer a).2 (Host.readAnswer b).2

/-- A relation that all dealings with hosts keep may be turned around. -/
lemma Host.Bisimulation.symm [Host σ] [Host τ] {H : σ → τ → Prop} (h : Bisimulation H) :
    Bisimulation fun b a => H a b :=
  ⟨fun hab command => h.execute hab command, fun hab => (h.answer hab).symm, fun hab => h.next hab⟩

/-- The interpreters differ at most in their hosts, which are related. -/
structure Interpreter.Over (H : σ → τ → Prop) (i : Interpreter σ) (i' : Interpreter τ) : Prop where
  /-- The scopes are the same. -/
  scopes : i'.scopes = i.scopes
  /-- The hosts are related. -/
  host : H i.host i'.host
  /-- The reports are the same. -/
  errors : i'.errors = i.errors
  /-- As many calls are open. -/
  callDepth : i'.callDepth = i.callDepth
  /-- The limits are the same. -/
  limit : i'.limit = i.limit

namespace Interpreter.Over

variable {H : σ → τ → Prop} {i : Interpreter σ} {i' : Interpreter τ}

/-- Interpreters over related hosts are so in either order. -/
lemma symm (h : Over H i i') : Over (fun b a => H a b) i' i :=
  ⟨h.scopes.symm, h.host, h.errors.symm, h.callDepth.symm, h.limit.symm⟩

/-- Fresh interpreters over related hosts differ in their hosts only. -/
lemma fresh {a : σ} {b : τ} (h : H a b) (limit : Nat) (globals : List (String × Value)) :
    Over H (Interpreter.fresh a limit globals) (Interpreter.fresh b limit globals) :=
  ⟨rfl, h, rfl, rfl, rfl⟩

/-- The same change of the scopes. -/
lemma modifyScopes (h : Over H i i') (f : Scopes → Scopes) :
    Over H { i with scopes := f i.scopes } { i' with scopes := f i'.scopes } :=
  ⟨congrArg f h.scopes, h.host, h.errors, h.callDepth, h.limit⟩

/-- Dealings with the host. -/
lemma withHost (h : Over H i i') {a : σ} {b : τ} (hab : H a b) :
    Over H { i with host := a } { i' with host := b } :=
  ⟨h.scopes, hab, h.errors, h.callDepth, h.limit⟩

/-- Interpreters over related hosts are still so inside a call. -/
lemma enter (h : Over H i i') (params : List String) (args : List Value) :
    Over H (i.enter params args) (i'.enter params args) := by
  refine ⟨?_, h.host, h.errors, congrArg (· + 1) h.callDepth, h.limit⟩
  simp only [Interpreter.enter, h.scopes]

/-- Interpreters over related hosts are still so after a call. -/
lemma leave (h : Over H i i') : Over H i.leave i'.leave :=
  ⟨congrArg Scopes.pop h.scopes, h.host, h.errors, congrArg (· - 1) h.callDepth, h.limit⟩

end Interpreter.Over

variable [Host σ] [Host τ] {H : σ → τ → Prop}

/-- **Runs over related hosts are alike**: no run finds a difference between them. -/
lemma simulation_over (h : Host.Bisimulation H) :
    Simulation (fun _ => True) fun (_ : ScopeId) i i' => Interpreter.Over H i i' where
  inside := fun _ _ _ _ _ => trivial
  lookup := fun hi name => by rw [hi.scopes]
  global? := fun hi name => by rw [hi.scopes]
  function? := fun hi name => by rw [hi.scopes]
  code := fun _ _ _ _ _ _ => trivial
  calls := fun hi => ⟨hi.callDepth, hi.limit, by rw [hi.scopes]⟩
  answer := fun hi => ⟨h.answer hi.host, hi.withHost (h.next hi.host)⟩
  command := fun hi command => hi.withHost (h.execute hi.host command)
  report := fun hi error =>
    ⟨hi.scopes, hi.host, congrArg (· ++ [error]) hi.errors, hi.callDepth, hi.limit⟩
  define := fun hi _ name value => hi.modifyScopes fun scopes => scopes.define _ name value
  declare := fun hi _ name value =>
    hi.modifyScopes fun scopes => scopes.modify _ fun frame => frame.declare name value
  register := fun hi decl _ =>
    hi.modifyScopes fun scopes => scopes.defineFunction Scopes.rootId decl
  enter := fun hi _ params args => hi.enter params args
  leave := fun _ _ hj => hj.leave

/-! ## Scripts with calls after them -/

namespace Interpreter

/-- The outside world makes some calls in the root, one after the other, and each of them ends, with
these outcomes. -/
inductive Replies :
    Interpreter σ → List (String × List Value) → List (Outcome Value) → Interpreter σ → Prop
  /-- No call. -/
  | nil {i : Interpreter σ} : Replies i [] [] i
  /-- A call, and others after it. -/
  | cons {i j k : Interpreter σ} {fuel : Nat} {name : String} {args : List Value}
      {reply : Outcome Value} {calls : List (String × List Value)} {replies : List (Outcome Value)}
      (hcall : callFunction fuel Scopes.rootId name args i = (reply, j)) (hends : reply.Ends)
      (hlater : Replies j calls replies k) :
      Replies i ((name, args) :: calls) (reply :: replies) k

/-- A script is run and ends with the first outcome. Then, also if it asked to exit, the outside
world makes some calls, and each of them ends, with the other outcomes. -/
def Completes (i : Interpreter σ) (script : Script) (calls : List (String × List Value))
    (first : Outcome Unit) (replies : List (Outcome Value)) (k : Interpreter σ) : Prop :=
  ∃ (fuel : Nat) (j : Interpreter σ),
    runScript fuel script i = (first, j) ∧ first.Ends ∧ j.Replies calls replies k

variable {i k : Interpreter σ} {i' : Interpreter τ} {script : Script}
  {calls : List (String × List Value)} {first : Outcome Unit} {replies : List (Outcome Value)}

/-- Calls that end over a host end over a related one, with the same outcomes. -/
lemma Replies.over (hH : Host.Bisimulation H) (h : i.Replies calls replies k)
    (hi : Over H i i') : ∃ k', i'.Replies calls replies k' ∧ Over H k k' := by
  induction h generalizing i' with
  | nil => exact ⟨i', .nil, hi⟩
  | @cons i j k fuel name args reply calls replies hcall hends _ ih =>
    have hsim := (simulation_over hH).simulatesWithin (Nat.le_refl fuel)
    obtain ⟨j', hcall', hj⟩ :=
      (hsim.callFunction Scopes.rootId name args).exists_eq hi hcall hends
    obtain ⟨k', hlater', hk⟩ := ih hj
    exact ⟨k', .cons hcall' hends hlater', hk⟩

/-- **What is completed over a host is completed over a related one**, with the same outcomes. -/
lemma Completes.over (hH : Host.Bisimulation H) (h : i.Completes script calls first replies k)
    (hi : Over H i i') : ∃ k', i'.Completes script calls first replies k' ∧ Over H k k' := by
  obtain ⟨fuel, j, hrun, hends, hreplies⟩ := h
  have hsim := (simulation_over hH).simulatesWithin (Nat.le_refl fuel)
  obtain ⟨j', hrun', hj⟩ := (hsim.runScript fun _ _ => trivial).exists_eq hi hrun hends
  obtain ⟨k', hreplies', hk⟩ := hreplies.over hH hj
  exact ⟨k', ⟨fuel, j', hrun', hends, hreplies'⟩, hk⟩

/-- There is only one way in which some calls can end. -/
lemma Replies.unique {replies' : List (Outcome Value)} {k' : Interpreter σ}
    (h : i.Replies calls replies k) (h' : i.Replies calls replies' k') :
    replies' = replies ∧ k' = k := by
  induction h generalizing replies' k' with
  | nil =>
    cases h'
    exact ⟨rfl, rfl⟩
  | cons hcall hends _ ih =>
    cases h' with
    | cons hcall' hends' hlater' =>
      obtain ⟨rfl, rfl⟩ := (steady_callFunction _ _ _).unique hcall hends hcall' hends'
      obtain ⟨rfl, rfl⟩ := ih hlater'
      exact ⟨rfl, rfl⟩

/-- There is only one way to complete a script and calls after it. -/
lemma Completes.unique {first' : Outcome Unit} {replies' : List (Outcome Value)}
    {k' : Interpreter σ} (h : i.Completes script calls first replies k)
    (h' : i.Completes script calls first' replies' k') :
    first' = first ∧ replies' = replies ∧ k' = k := by
  obtain ⟨fuel, j, hrun, hends, hreplies⟩ := h
  obtain ⟨fuel', j', hrun', hends', hreplies'⟩ := h'
  obtain ⟨rfl, rfl⟩ := (steady_runScript script).unique hrun hends hrun' hends'
  exact ⟨rfl, hreplies.unique hreplies'⟩

end Interpreter

/-! ## Records -/

/-- Something that a run asks of its host. -/
inductive Event
  /-- To show a command. -/
  | command (command : Command)
  /-- To give an answer. -/
  | request
  deriving DecidableEq, Repr

/-- The command of an event. -/
def Event.command? : Event → Option Command
  | .command shown => some shown
  | .request => none

/-- A host with a record of what it was asked, oldest first. -/
structure Recorded (σ : Type) where
  /-- The host. -/
  host : σ
  /-- The record. -/
  events : List Event

namespace Recorded

/-- A host with an empty record. -/
def start (host : σ) : Recorded σ :=
  ⟨host, []⟩

/-- Requests are put on record and passed on. -/
instance : Host (Recorded σ) where
  execute command recorded :=
    ⟨Host.execute command recorded.host, recorded.events ++ [.command command]⟩
  readAnswer recorded :=
    ((Host.readAnswer recorded.host).1,
      ⟨(Host.readAnswer recorded.host).2, recorded.events ++ [.request]⟩)

/-- The dealings on record are those with the host. -/
def Of (host : σ) (recorded : Recorded σ) : Prop :=
  recorded.host = host

/-- **A record changes nothing**: the host with a record and the host itself give the same
answers. -/
lemma bisimulation : Host.Bisimulation (Of : σ → Recorded σ → Prop) where
  execute := by
    rintro _ recorded rfl command
    rfl
  answer := by
    rintro _ recorded rfl
    rfl
  next := by
    rintro _ recorded rfl
    rfl

end Recorded

/-- What is completed over a host is what is completed over the host with a record. -/
lemma Interpreter.completes_iff_recorded {host : σ} {limit : Nat} {globals : List (String × Value)}
    {script : Script} {calls : List (String × List Value)} {first : Outcome Unit}
    {replies : List (Outcome Value)} {k : Interpreter σ} :
    (Interpreter.fresh host limit globals).Completes script calls first replies k ↔
      ∃ events, (Interpreter.fresh (Recorded.start host) limit globals).Completes script calls first
        replies { k with host := ⟨k.host, events⟩ } := by
  have hstart : Recorded.Of host (.start host) := rfl
  have hfresh := Over.fresh hstart limit globals
  constructor
  · intro hk
    obtain ⟨⟨_, ⟨_, events⟩, _, _, _⟩, hr, ⟨rfl, rfl, rfl, rfl, rfl⟩⟩ :=
      hk.over Recorded.bisimulation hfresh
    exact ⟨events, hr⟩
  · rintro ⟨events, hr⟩
    obtain ⟨⟨_, _, _, _, _⟩, hk, ⟨rfl, rfl, rfl, rfl, rfl⟩⟩ :=
      hr.over Recorded.bisimulation.symm hfresh.symm
    exact hk

end DialogueScript
