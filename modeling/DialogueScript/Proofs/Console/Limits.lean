import DialogueScript.Proofs.Console.Readings
import DialogueScript.Proofs.Interpreter.Dialogue

set_option autoImplicit false

/-!
# An output that is full

An output with a limit keeps the bytes in front of the limit, and a write that goes beyond it fails.
A session ends when one of its own writes fails. A script does not notice: its commands are lost,
and where the prompt cannot be written it gets no answer and goes on without one. So from the limit
on the session may be quite another one than without a limit, with other calls, reports and answers.
Yet nothing of that is to be seen on the output, since it is full.

The two sessions are compared step by step. They go together as long as all that has been written
fits; and from the write on that does not fit, the one output is full and the other one goes beyond
it, whatever happens to either of them.

## Main definitions

* `DialogueScript.Console.Within`, `DialogueScript.Console.Cut` — consoles with and without a limit,
  up to the limit and beyond it.
* `DialogueScript.Parts` — a step keeps states together or parts them, and does not undo that.
* `DialogueScript.Session.Finishes` — a session comes to its end.

## Main results

* `DialogueScript.Console.parting` — to scripts the consoles are hosts that part at the limit.
* `DialogueScript.Session.parts_run` — so it is with whole sessions.
* `DialogueScript.Session.steady_run` — more fuel does not change how a session ends.
* `DialogueScript.output_cut_at_limit` — a limit on the output only cuts it.
-/

namespace DialogueScript

/-! ## Steps that part states -/

/-- After the step, states that go together still do so, with the same result, or they have parted.
Once they have parted, the step on either side changes nothing about that. -/
structure Parts {ε S α : Type} (H P : S → S → Prop) (step : ExceptT ε (StateM S) α) : Prop where
  /-- The step is made on both sides. -/
  together : ∀ {s t : S}, H s t →
    (step t).1 = (step s).1 ∧ H (step s).2 (step t).2 ∨ P (step s).2 (step t).2
  /-- The step is made on the first side. -/
  left : ∀ {s t : S}, P s t → P (step s).2 t
  /-- The step is made on the second side. -/
  right : ∀ {s t : S}, P s t → P s (step t).2

section Steps

variable {ε S α β : Type} {H P : S → S → Prop} {step : ExceptT ε (StateM S) α}
  {f : α → ExceptT ε (StateM S) β}

/-- A step that does nothing parts nothing. -/
lemma parts_pure (a : α) : Parts H P (pure a : ExceptT ε (StateM S) α) :=
  ⟨fun h => .inl ⟨rfl, h⟩, fun h => h, fun h => h⟩

/-- A step that fails at once parts nothing. -/
lemma parts_throw (e : ε) : Parts H P (throw e : ExceptT ε (StateM S) α) :=
  ⟨fun h => .inl ⟨rfl, h⟩, fun h => h, fun h => h⟩

/-- Behind two steps is what is behind the first one, or behind the second one after it. -/
lemma snd_bind (step : ExceptT ε (StateM S) α) (f : α → ExceptT ε (StateM S) β) (s : S) :
    ((step >>= f) s).2 = (step s).2 ∨ ∃ a, ((step >>= f) s).2 = (f a (step s).2).2 := by
  rcases hs : step s with ⟨e | a, mid⟩
  · exact .inl (by rw [bind_of_error hs])
  · exact .inr ⟨a, by rw [bind_of_ok hs]⟩

/-- Steps one after the other part states where one of them does. -/
lemma Parts.bind (hstep : Parts H P step) (hf : ∀ a, Parts H P (f a)) :
    Parts H P (step >>= f) := by
  have hleft : ∀ {s t : S}, P (step s).2 t → P ((step >>= f) s).2 t := by
    intro s t h
    rcases snd_bind step f s with hs | ⟨a, hs⟩
    · rwa [hs]
    · rw [hs]
      exact (hf a).left h
  have hright : ∀ {s t : S}, P s (step t).2 → P s ((step >>= f) t).2 := by
    intro s t h
    rcases snd_bind step f t with ht | ⟨a, ht⟩
    · rwa [ht]
    · rw [ht]
      exact (hf a).right h
  refine ⟨fun {s t} h => ?_, fun h => hleft (hstep.left h), fun h => hright (hstep.right h)⟩
  rcases hstep.together h with ⟨hsame, hmid⟩ | hparted
  · have ht : step t = ((step s).1, (step t).2) := Prod.ext hsame rfl
    rcases hs : step s with ⟨e | a, mid⟩
    -- The first step fails on both sides, and the second one is not made.
    · rw [hs] at ht hmid
      rw [bind_of_error hs, bind_of_error ht]
      exact .inl ⟨rfl, hmid⟩
    · rw [hs] at ht hmid
      rw [bind_of_ok hs, bind_of_ok ht]
      exact (hf a).together hmid
  -- The results may differ from here on, so that each side goes on by itself.
  · exact .inr (hright (hleft hparted))

/-- A step for each member of a list. -/
lemma parts_forM {γ : Type} {step : γ → ExceptT ε (StateM S) Unit} (h : ∀ c, Parts H P (step c))
    (items : List γ) : Parts H P (items.forM step) := by
  induction items with
  | nil => exact parts_pure _
  | cons c items ih => exact (h c).bind fun _ => ih

/-- A step that depends on the state, but in the same way on states that go together. -/
lemma parts_get {f : S → ExceptT ε (StateM S) α} (h : ∀ s, Parts H P (f s))
    (hsame : ∀ {s t : S}, H s t → f t = f s) : Parts H P (get >>= f) := by
  refine ⟨fun {s t} hst => ?_, fun {s t} => (h s).left, fun {s t} => (h t).right⟩
  rw [get_bind_apply, get_bind_apply, hsame hst]
  exact (h s).together hst

end Steps

/-! ## Consoles with and without a limit -/

/-- Of bytes that fit the limit leaves all. -/
lemma extract_of_size_le {bytes : ByteArray} {limit : Nat} (h : bytes.size ≤ limit) :
    bytes.extract 0 limit = bytes := by
  rw [← Nat.max_eq_left h, ByteArray.extract_zero_max_size]

/-- **What a limit does**: the bytes in front of it are kept, and a write fails that goes beyond. -/
lemma Sink.write_of_limit {limit : Nat} {written : ByteArray} (h : written.size ≤ limit)
    (text : String) :
    (Sink.mk (some limit) written).write text =
      (decide (written.size + text.toUTF8.size ≤ limit),
        ⟨some limit, (written ++ text.toUTF8).extract 0 limit⟩) := by
  rw [ByteArray.extract_append, extract_of_size_le h, Nat.zero_sub]
  simp only [Sink.write, Sink.writeBytes]
  split
  · next hfits => rw [decide_eq_true (by omega), extract_of_size_le hfits]
  · next hfits => rw [decide_eq_false (by omega)]

namespace Console

/-- The console with a limit on its output. -/
def limited (limit : Nat) (console : Console) : Console :=
  { console with output := { console.output with limit := some limit } }

/-- The first console is the second one with a limit, and all that has been written fits. -/
structure Within (limit : Nat) (a b : Console) : Prop where
  /-- They differ in the limit only. -/
  eq : a = b.limited limit
  /-- The second one has no limit. -/
  unlimited : b.output.limit = none
  /-- All fits. -/
  fits : b.output.written.size ≤ limit

/-- What has been written to the second console goes beyond the limit of the first, which has kept
the bytes in front of it. -/
structure Cut (limit : Nat) (a b : Console) : Prop where
  /-- The first one has the limit. -/
  limited : a.output.limit = some limit
  /-- It has kept what fits. -/
  kept : a.output.written = b.output.written.extract 0 limit
  /-- The second one has no limit. -/
  unlimited : b.output.limit = none
  /-- Not all fits. -/
  beyond : limit < b.output.written.size

variable {limit : Nat} {a b : Console}

/-- An output that was cut is full. -/
lemma Cut.size_eq (h : Cut limit a b) : a.output.written.size = limit := by
  rw [h.kept, ByteArray.size_extract, Nat.min_eq_left h.beyond.le, Nat.sub_zero]

/-- Only the outputs matter. -/
lemma Cut.of_output_eq (h : Cut limit a b) {a' b' : Console} (ha : a'.output = a.output)
    (hb : b'.output = b.output) : Cut limit a' b' :=
  ⟨ha ▸ h.limited, by rw [ha, hb]; exact h.kept, hb ▸ h.unlimited, hb ▸ h.beyond⟩

/-- An action that does not look at the limit of the output and does not write to it. -/
lemma parts_of_keeps {α : Type} {action : ConsoleM α} (hkeeps : Watched.Keeps output action)
    (hlimited : ∀ console : Console, action (console.limited limit) =
      ((action console).1, (action console).2.limited limit)) :
    Parts (Within limit) (Cut limit) action where
  together := by
    rintro _ b ⟨rfl, hunlimited, hfits⟩
    rw [hlimited]
    exact .inl ⟨rfl, rfl, (hkeeps b).symm ▸ hunlimited, (hkeeps b).symm ▸ hfits⟩
  left := fun h => h.of_output_eq (hkeeps _) rfl
  right := fun h => h.of_output_eq rfl (hkeeps _)

/-- A write to a console with a limit whose output keeps it. -/
lemma write_of_limit (console : Console) (hlimit : console.output.limit = some limit)
    (hsize : console.output.written.size ≤ limit) (text : String) :
    write text console =
      (if console.output.written.size + text.toUTF8.size ≤ limit then .ok ()
        else .error .sinkFull,
      { console with
        output := ⟨some limit, (console.output.written ++ text.toUTF8).extract 0 limit⟩ }) := by
  obtain ⟨input, ⟨_, written⟩, diagnostics, starved⟩ := console
  cases hlimit
  have hsink := Sink.write_of_limit hsize text
  rw [write, get_bind_apply]
  by_cases hfits : written.size + text.toUTF8.size ≤ limit
  · rw [decide_eq_true hfits] at hsink
    rw [hsink, if_pos hfits]
    rfl
  · rw [decide_eq_false hfits] at hsink
    rw [hsink, if_neg hfits]
    rfl

/-- **A write parts consoles if it goes beyond the limit.** Behind that the limit is reached, and no
write adds anything. -/
lemma parts_write (text : String) : Parts (Within limit) (Cut limit) (write text) where
  together := by
    rintro _ b ⟨rfl, hunlimited, hsize⟩
    rw [write_of_limit (b.limited limit) rfl hsize, write_apply hunlimited]
    have hgrown : (b.printed text).output.written.size =
        b.output.written.size + text.toUTF8.size := ByteArray.size_append
    by_cases hfits : b.output.written.size + text.toUTF8.size ≤ limit
    · have hkept : (b.output.written ++ text.toUTF8).extract 0 limit =
          b.output.written ++ text.toUTF8 := extract_of_size_le (hgrown ▸ hfits)
      refine .inl ⟨(if_pos hfits).symm, ?_, hunlimited, hgrown ▸ hfits⟩
      simp only [limited, printed, hkept]
    · exact .inr ⟨rfl, rfl, hunlimited, hgrown ▸ Nat.lt_of_not_le hfits⟩
  left := by
    intro a b h
    -- The output is full, so that of the text nothing is kept.
    rw [write_of_limit a h.limited h.size_eq.le]
    exact ⟨rfl, (ByteArray.extract_append_eq_left h.size_eq.symm).trans h.kept, h.unlimited,
      h.beyond⟩
  right := by
    intro a b h
    rw [write_apply h.unlimited]
    refine ⟨h.limited, ?_, h.unlimited, ?_⟩
    · have hnone : text.toUTF8.extract 0 (limit - b.output.written.size) = .empty := by
        rw [Nat.sub_eq_zero_of_le h.beyond.le, ByteArray.extract_same]
      rw [h.kept, printed, ByteArray.extract_append, Nat.zero_sub, hnone, ByteArray.append_empty]
    · exact h.beyond.trans_le (by simp [printed, ByteArray.size_append])

/-- A title is three writes. -/
lemma parts_title (text : String) : Parts (Within limit) (Cut limit) (title text) :=
  (parts_write _).bind fun _ => (parts_write _).bind fun _ => parts_write _

/-- Reports go to the diagnostics, which have the same limit on both sides. -/
lemma parts_complain (text : String) : Parts (Within limit) (Cut limit) (complain text) := by
  refine parts_of_keeps (fun console => ?_) fun console => ?_
  · rw [complain, get_bind_apply]
    rcases console.diagnostics.write (text ++ "\n") with ⟨_ | _, sink⟩ <;> rfl
  · have hsame : (console.limited limit).diagnostics = console.diagnostics := rfl
    rw [complain, get_bind_apply, get_bind_apply, hsame]
    rcases console.diagnostics.write (text ++ "\n") with ⟨_ | _, sink⟩ <;> rfl

/-- Reading a line leaves the output alone. -/
lemma parts_readLine : Parts (Within limit) (Cut limit) readLine := by
  refine parts_of_keeps ?_ ?_
  · rintro ⟨_ | ⟨b, bytes⟩, output, diagnostics, starved⟩
    · rw [readLine_of_nil rfl]
      cases starved <;> rfl
    · rw [readLine_cons]
      cases segmentText? (takeSegment (b :: bytes)).1 <;> rfl
  · rintro ⟨_ | ⟨b, bytes⟩, output, diagnostics, starved⟩
    · rw [readLine_of_nil rfl, limited, readLine_of_nil rfl]
      cases starved <;> rfl
    · rw [limited, readLine_cons, readLine_cons]
      cases segmentText? (takeSegment (b :: bytes)).1 <;> rfl

/-- Asking for an answer is a write and a reading. -/
lemma parts_promptLine : Parts (Within limit) (Cut limit) promptLine :=
  (parts_write _).bind fun _ => parts_readLine

/-- An answer is what the prompt brings; a fault is no answer. -/
lemma readAnswer_apply (console : Console) :
    Host.readAnswer console = ((promptLine console).1.toOption.join, (promptLine console).2) := by
  simp only [Host.readAnswer]
  rcases promptLine console with ⟨_ | _, next⟩ <;> rfl

/-- **To scripts, consoles with and without a limit are hosts that part at the limit.** -/
lemma parting (limit : Nat) : Host.Parting (Within limit) (Cut limit) where
  execute := fun h command =>
    ((parts_write (command.shown ++ "\n")).together h).imp_left And.right
  answer := by
    intro a b h
    rw [readAnswer_apply, readAnswer_apply]
    refine (parts_promptLine.together h).imp_left fun ⟨hsame, hwithin⟩ => ⟨?_, hwithin⟩
    rw [hsame]
  executeLeft := fun h command => (parts_write (command.shown ++ "\n")).left h
  answerLeft := fun h => by
    rw [readAnswer_apply]
    exact parts_promptLine.left h
  executeRight := fun h command => (parts_write (command.shown ++ "\n")).right h
  answerRight := fun h => by
    rw [readAnswer_apply]
    exact parts_promptLine.right h

/-- **Where the prompt cannot be written** there is no answer, and nothing is taken. -/
lemma readAnswer_of_full {console : Console} (hlimit : console.output.limit = some limit)
    (hfull : limit < console.output.written.size + answerPrompt.toUTF8.size) :
    (Host.readAnswer console).1 = none ∧ (Host.readAnswer console).2.input = console.input := by
  have hprompt : 0 < answerPrompt.toUTF8.size := by decide
  have hroom : ¬ answerPrompt.toUTF8.size ≤ limit - console.output.written.size := by omega
  have hwrite : write answerPrompt console =
      (.error .sinkFull, (write answerPrompt console).2) := by
    rw [write, get_bind_apply]
    simp only [Sink.write, Sink.writeBytes, hlimit, hroom, if_false]
    rfl
  have hprompts : Reader.script.prompts console = false := by
    rw [Reader.prompts, hwrite]
    rfl
  refine ⟨?_, Reader.input_read_of_not_prompts hprompts⟩
  have hline : promptLine console = (.error .sinkFull, _) := bind_of_error hwrite
  rw [readAnswer_apply, hline]
  rfl

end Console

/-! ## Sessions with and without a limit -/

namespace Session

open Watched (onConsole_apply)

variable {limit : Nat}

/-- The step keeps sessions together that differ in a limit on the output only, until something goes
beyond it. -/
def PartsAt (limit : Nat) {α : Type} (step : SessionM α) : Prop :=
  Parts (Interpreter.Over (Console.Within limit))
    (fun i i' => Console.Cut limit i.host i'.host) step

/-- A session uses its console, and nothing but that changes. -/
lemma parts_onConsole {α : Type} {action : ConsoleM α}
    (h : Parts (Console.Within limit) (Console.Cut limit) action) :
    PartsAt limit (onConsole action) where
  together := by
    intro i i' hi
    rw [onConsole_apply, onConsole_apply]
    refine (h.together hi.host).imp_left fun ⟨hsame, hwithin⟩ => ⟨?_, hi.withHost hwithin⟩
    rw [hsame]
  left := fun hi => by
    rw [onConsole_apply]
    exact h.left hi
  right := fun hi => by
    rw [onConsole_apply]
    exact h.right hi

/-- As long as the sessions go together they have the same reports to write. -/
lemma parts_flushErrors : PartsAt limit flushErrors := by
  have hlines : ∀ errors : List RuntimeError, PartsAt limit
      (errors.forM fun error => onConsole (Console.complain error.message)) :=
    parts_forM fun error => parts_onConsole (Console.parts_complain error.message)
  have happly : ∀ i, flushErrors i =
      (i.errors.forM fun error => onConsole (Console.complain error.message)) i.clearErrors :=
    fun _ => rfl
  refine ⟨fun {i i'} hi => ?_, fun {i _} hi => ?_, fun {_ i'} hi => ?_⟩
  · have hcleared : Interpreter.Over (Console.Within limit) i.clearErrors i'.clearErrors :=
      ⟨hi.scopes, hi.host, rfl, hi.callDepth, hi.limit⟩
    rw [happly, happly, hi.errors]
    exact (hlines i.errors).together hcleared
  · exact (hlines i.errors).left (s := i.clearErrors) hi
  · exact (hlines i'.errors).right (t := i'.clearErrors) hi

/-- What a session does after a call depends on the outcome, which is the same as long as the
sessions go together. -/
lemma parts_close {α : Type} (outcome : Outcome α) : PartsAt limit (close outcome) := by
  cases outcome with
  | done _ => exact parts_flushErrors
  | exitRequested =>
    exact parts_flushErrors.bind fun _ =>
      (parts_onConsole (Console.parts_write _)).bind fun _ =>
        parts_onConsole (Console.parts_write _)
  | outOfFuel => exact parts_throw _

/-- **A script runs**: with a limit as without it, until the consoles part. -/
lemma parts_perform {α : Type} {p : (σ : Type) → Host σ → Eval σ α} (hp : Eval.Spoken p) :
    PartsAt limit (perform (p Console inferInstance)) := by
  have happly : ∀ i, perform (p Console inferInstance) i =
      close (p Console inferInstance i).1 (p Console inferInstance i).2 :=
    fun _ => perform_apply rfl
  refine ⟨fun {i i'} hi => ?_, fun {i i'} hi => ?_, fun {i i'} hi => ?_⟩
  · rw [happly, happly]
    rcases hp.parting (Console.parting limit) hi with ⟨hsame, hwithin⟩ | hcut
    · rw [hsame]
      exact (parts_close _).together hwithin
    · exact .inr ((parts_close _).right ((parts_close _).left hcut))
  · rw [happly]
    exact (parts_close _).left (hp.left (Console.parting limit) hi)
  · rw [happly]
    exact (parts_close _).right (hp.right (Console.parting limit) hi)

/-- A call of a function parts sessions at the limit only. -/
lemma parts_invoke (fuel : Nat) (name : String) (args : List Value) :
    PartsAt limit (invoke fuel name args) :=
  parts_perform ((spokenWithin fuel).callFunction Scopes.rootId name args)

/-- Asking the user parts sessions at the limit only, by induction on the rounds. -/
lemma parts_askWithin (fuel : Nat) (exitCommand : String) (rounds : Nat) :
    PartsAt limit (askWithin fuel exitCommand rounds) := by
  induction rounds with
  | zero => exact parts_throw _
  | succ rounds ih =>
    refine (parts_onConsole (Console.parts_write _)).bind fun _ =>
      (parts_onConsole Console.parts_readLine).bind fun found => ?_
    cases found with
    | none => exact parts_pure _
    | some line =>
      cases hread : CommandLine.read exitCommand line with
      | exit =>
        simp only [hread]
        exact parts_onConsole (Console.parts_title _)
      | empty =>
        simp only [hread]
        exact ih
      | call name args =>
        simp only [hread]
        exact (parts_onConsole (Console.parts_write _)).bind fun _ =>
          (parts_invoke fuel name args).bind fun _ => ih

/-- Asking the user for functions parts sessions at the limit only. -/
lemma parts_ask (fuel : Nat) (exitCommand : String) : PartsAt limit (ask fuel exitCommand) := by
  refine (parts_onConsole (Console.parts_title _)).bind fun _ =>
    parts_get (fun i => parts_askWithin fuel exitCommand _) fun {i i'} hi => ?_
  -- As much input is left with the limit as without it.
  rw [hi.host.eq]
  rfl

/-- **Sessions with and without a limit part at the limit.** -/
lemma parts_run (fuel : Nat) (options : SessionOptions) (script : Script) :
    PartsAt limit (run fuel options script) := by
  refine (parts_onConsole (Console.parts_title _)).bind fun _ =>
    (parts_perform (spoken_runScript fuel script)).bind fun _ => Parts.bind ?_ fun _ =>
      (parts_forM (fun name => parts_invoke fuel name []) options.calls).bind fun _ => ?_
  · cases options.entryFunction with
    | none => exact parts_pure _
    | some name => exact parts_invoke fuel name []
  · cases options.interactive with
    | true => exact parts_ask fuel options.exitCommand
    | false => exact parts_pure _

/-! ## More fuel -/

/-- More fuel does not change how the step goes, unless the fuel was used up. -/
def Steady {α : Type} (step : Nat → SessionM α) : Prop :=
  ∀ ⦃fuel fuel' : Nat⦄, fuel ≤ fuel' → ∀ ⦃i k : Interpreter Console⦄ ⦃result : Except Stop α⦄,
    step fuel i = (result, k) → result ≠ .error .outOfFuel → step fuel' i = (result, k)

section Steady

variable {α β : Type}

/-- A step that is given no fuel is steady. -/
lemma steady_const (step : SessionM α) : Steady fun _ => step :=
  fun _ _ _ _ _ _ hrun _ => hrun

/-- Steady steps one after the other are steady. -/
lemma Steady.bind {step : Nat → SessionM α} {f : α → Nat → SessionM β} (hstep : Steady step)
    (hf : ∀ a, Steady (f a)) : Steady fun fuel => step fuel >>= fun a => f a fuel := by
  intro fuel fuel' hle i k result hrun hfinished
  beta_reduce at hrun ⊢
  rcases hfirst : step fuel i with ⟨stop | a, mid⟩
  · rw [bind_of_error hfirst] at hrun
    obtain ⟨rfl, rfl⟩ := Prod.mk.inj hrun
    have hstop : (.error stop : Except Stop α) ≠ .error .outOfFuel := by
      rintro ⟨⟩
      exact hfinished rfl
    exact bind_of_error (hstep hle hfirst hstop)
  · rw [bind_of_ok hfirst] at hrun
    rw [bind_of_ok (hstep hle hfirst (by rintro ⟨⟩))]
    exact hf a hle hrun hfinished

/-- A steady step for each member of a list is steady. -/
lemma steady_forM {γ : Type} {step : γ → Nat → SessionM Unit} (h : ∀ c, Steady (step c))
    (items : List γ) : Steady fun fuel => items.forM fun c => step c fuel := by
  induction items with
  | nil => exact steady_const _
  | cons c items ih => exact (h c).bind fun _ => ih

/-- A session whose script runs out of fuel does so too. -/
lemma steady_perform {computation : Nat → Eval Console α} (h : Eval.Steady computation) :
    Steady fun fuel => perform (computation fuel) := by
  intro fuel fuel' hle i k result hrun hfinished
  beta_reduce at hrun ⊢
  rcases hcomputation : computation fuel i with ⟨outcome, j⟩
  rw [perform_apply hcomputation] at hrun
  have hends : outcome.Ends := by
    cases outcome with
    | done _ => trivial
    | exitRequested => trivial
    | outOfFuel =>
      obtain ⟨rfl, -⟩ := Prod.mk.inj hrun
      exact hfinished rfl
  rw [perform_apply (h.eq_of_le hle hcomputation hends), hrun]

/-- A call of a function is steady. -/
lemma steady_invoke (name : String) (args : List Value) :
    Steady fun fuel => invoke fuel name args :=
  steady_perform (steady_callFunction Scopes.rootId name args)

/-- Asking the user is steady, for any number of rounds. -/
lemma steady_askWithin (exitCommand : String) (rounds : Nat) :
    Steady fun fuel => askWithin fuel exitCommand rounds := by
  induction rounds with
  | zero => exact steady_const _
  | succ rounds ih =>
    refine (steady_const _).bind fun _ => (steady_const _).bind fun found => ?_
    cases found with
    | none => exact steady_const _
    | some line =>
      cases hread : CommandLine.read exitCommand line with
      | exit =>
        simp only [hread]
        exact steady_const _
      | empty =>
        simp only [hread]
        exact ih
      | call name args =>
        simp only [hread]
        exact (steady_const _).bind fun _ => (steady_invoke name args).bind fun _ => ih

/-- **More fuel does not change how a session ends.** -/
lemma steady_run (options : SessionOptions) (script : Script) :
    Steady fun fuel => run fuel options script := by
  refine (steady_const _).bind fun _ => (steady_perform (steady_runScript script)).bind fun _ =>
    Steady.bind ?_ fun _ =>
      (steady_forM (fun name => steady_invoke name []) options.calls).bind fun _ => ?_
  · cases options.entryFunction with
    | none => exact steady_const _
    | some name => exact steady_invoke name []
  · cases options.interactive with
    | true =>
      exact (steady_const _).bind fun _ => (steady_const get).bind fun _ =>
        steady_askWithin options.exitCommand _
    | false => exact steady_const _

end Steady

/-- The session comes to its end, well or because the console failed, with this result and this
interpreter. -/
def Finishes (options : SessionOptions) (script : Script) (i : Interpreter Console)
    (result : Except Stop Unit) (k : Interpreter Console) : Prop :=
  ∃ fuel, run fuel options script i = (result, k) ∧ result ≠ .error .outOfFuel

/-- Two sessions that finish do so with the same fuel. -/
lemma Finishes.exists_fuel {options : SessionOptions} {script : Script}
    {i i' k k' : Interpreter Console} {result result' : Except Stop Unit}
    (h : Finishes options script i result k) (h' : Finishes options script i' result' k') :
    ∃ fuel, run fuel options script i = (result, k) ∧
      run fuel options script i' = (result', k') := by
  obtain ⟨fuel, hrun, hfinished⟩ := h
  obtain ⟨fuel', hrun', hfinished'⟩ := h'
  exact ⟨max fuel fuel', steady_run options script (Nat.le_max_left _ _) hrun hfinished,
    steady_run options script (Nat.le_max_right _ _) hrun' hfinished'⟩

/-- A session that ends well comes to its end. -/
lemma finishes_of_isOk {options : SessionOptions} {script : Script} {i : Interpreter Console}
    (fuel : Nat) (h : (run fuel options script i).1.isOk = true) :
    Finishes options script i (.ok ()) (run fuel options script i).2 := by
  rcases hrun : run fuel options script i with ⟨stop | _, k⟩
  · rw [hrun] at h
    cases h
  · exact ⟨fuel, hrun, by rintro ⟨⟩⟩

end Session

/-- **A limit on the output only cuts it.** Take a session over any input, with any options, script,
variables and limits, once with a limit on the output and once without one, and let both come to
their ends, well or with a fault. What the first has written are the first bytes of what the second
has written, as many as the limit allows. If the limit allows all of them, the sessions have the
same result and leave the same interpreter, but for the limit: the same variables and functions, the
same diagnostics, and the same input. If not, they may differ in all of this.

A script that asks for an answer where the limit does not allow the prompt gets none, and nothing of
the input is taken.

**Proof sketch.** A write keeps the two consoles alike or fills the first, and once it is full no
write on either side changes what is compared (`Console.parts_write`). Scripts deal with a console
by writing and reading only, and cannot tell the two apart before that (`Eval.Spoken.parting`). So
every step of a session keeps it (`Session.parts_run`). -/
theorem output_cut_at_limit (options : SessionOptions) (script : Script) (input : List UInt8)
    (globals : List (String × Value)) (callLimit limit : Nat) (diagnosticsLimit : Option Nat) :
    (∀ (result result' : Except Stop Unit) (k k' : Interpreter Console),
      Session.Finishes options script
          (.fresh (.new input (some limit) diagnosticsLimit) callLimit globals) result k →
        Session.Finishes options script
          (.fresh (.new input none diagnosticsLimit) callLimit globals) result' k' →
        k.host.output.written = k'.host.output.written.extract 0 limit ∧
          (k'.host.output.written.size ≤ limit →
            result = result' ∧ k = { k' with host := k'.host.limited limit })) ∧
    ∀ console : Console, console.output.limit = some limit →
      limit < console.output.written.size + Console.answerPrompt.toUTF8.size →
        (Host.readAnswer console).1 = none ∧
          (Host.readAnswer console).2.input = console.input := by
  refine ⟨fun result result' k k' h h' => ?_, fun console => Console.readAnswer_of_full⟩
  obtain ⟨fuel, hrun, hrun'⟩ := h.exists_fuel h'
  have hstart : Console.Within limit (.new input (some limit) diagnosticsLimit)
      (.new input none diagnosticsLimit) := ⟨rfl, rfl, Nat.zero_le limit⟩
  have hends := (Session.parts_run fuel options script).together
    (Interpreter.Over.fresh hstart callLimit globals)
  rw [hrun, hrun'] at hends
  rcases hends with ⟨hresult, hover⟩ | hcut
  · have heq : k = { k' with host := k'.host.limited limit } := by
      obtain ⟨_, _, _, _, _⟩ := k
      obtain ⟨_, _, _, _, _⟩ := k'
      obtain ⟨rfl, ⟨rfl, -, -⟩, rfl, rfl, rfl⟩ := hover
      rfl
    refine ⟨?_, fun _ => ⟨hresult.symm, heq⟩⟩
    rw [heq, extract_of_size_le hover.host.fits]
    rfl
  · exact ⟨hcut.kept, fun hfits => absurd hfits (Nat.not_le_of_lt hcut.beyond)⟩

/-- A user who has typed an answer. -/
def answering (outputLimit : Option Nat) : Interpreter Console :=
  .fresh (.new (Console.typed ["7"]) outputLimit none) 3 []

/-- A session that calls a function which asks for an answer. With 45 bytes the prompt is cut, and
what was typed is left; with 60 bytes all fits. -/
theorem output_cut_at_limit_asking :
    let options : SessionOptions := ⟨"exit", some "ask", [], false⟩
    ∃ cut whole free : Interpreter Console,
      Session.Finishes options asking (answering (some 45)) (.ok ()) cut ∧
        Session.Finishes options asking (answering (some 60)) (.ok ()) whole ∧
        Session.Finishes options asking (answering none) (.ok ()) free ∧
        cut.host.output.written = free.host.output.written.extract 0 45 ∧
        cut.host.output.written =
          "\n=== LAUNCHING THE INTERPRETER... ===\n\nEnter ".toUTF8 ∧
        cut.host.input = Console.typed ["7"] ∧ free.host.input = [] ∧
        free.host.output.written.size = 60 ∧
        whole = { free with host := free.host.limited 60 } ∧
        (Host.readAnswer cut.host).1 = none ∧
        (Host.readAnswer cut.host).2.input = cut.host.input := by
  intro options
  have hwell : ∀ limit ∈ [some 45, some 60, none],
      (Session.run 5 options asking (answering limit)).1.isOk = true := by
    decide +kernel
  have hcut := Session.finishes_of_isOk 5 (hwell (some 45) (by decide))
  have hwhole := Session.finishes_of_isOk 5 (hwell (some 60) (by decide))
  have hfree := Session.finishes_of_isOk 5 (hwell none (by decide))
  have hsize : (Session.run 5 options asking (answering none)).2.host.output.written.size = 60 := by
    decide +kernel
  have hfull : (Session.run 5 options asking (answering (some 45))).2.host.output.limit = some 45 ∧
      45 < (Session.run 5 options asking (answering (some 45))).2.host.output.written.size +
        Console.answerPrompt.toUTF8.size := by
    decide +kernel
  obtain ⟨hsessions, hprompts⟩ :=
    output_cut_at_limit options asking (Console.typed ["7"]) [] 3 45 none
  obtain ⟨hsessions', -⟩ :=
    output_cut_at_limit options asking (Console.typed ["7"]) [] 3 60 none
  obtain ⟨hkept, -⟩ := hsessions _ _ _ _ hcut hfree
  obtain ⟨-, hsame⟩ := hsessions' _ _ _ _ hwhole hfree
  exact ⟨_, _, _, hcut, hwhole, hfree, hkept, by decide +kernel, by decide +kernel,
    by decide +kernel, hsize, (hsame hsize.le).2, hprompts _ hfull.1 hfull.2⟩

end DialogueScript
