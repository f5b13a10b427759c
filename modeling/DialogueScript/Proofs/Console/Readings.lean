import DialogueScript.Proofs.Console.Segments

set_option autoImplicit false

/-!
# Sessions and scripts share one input

A session asks for a line when it wants to know which function to call, and a script asks for one
whenever it wants an answer. Which of them asks next depends on what the script does. To say what
each of them got, the console is watched: it keeps a record of the readings, who asked, which bytes
are gone and what came back. A watched session is the same session with this record beside it.

The record shows that the readings have taken the segments of the input in turn, and that an exit
line was the last of them.

## Main definitions

* `DialogueScript.LineRead`, `DialogueScript.Watched` — a reading, and a console with a record.
* `DialogueScript.Watched.run` — a whole session that is watched.
* `DialogueScript.Watched.Faithful` — the readings on record have taken the segments in turn.
* `DialogueScript.Watched.Shadows` — a watched step goes as the step does.

## Main results

* `DialogueScript.Watched.Faithful.read` — a reading takes the next segment.
* `DialogueScript.Watched.shadows_run` — a watched session goes as the session does.
* `DialogueScript.input_taken_in_turn` — every segment is read once, and in order.
-/

namespace DialogueScript

open Session

/-! ## Watched consoles -/

/-- A line was asked for. -/
structure LineRead where
  /-- Who asked. -/
  reader : Reader
  /-- The bytes that are gone from the front of the input. -/
  taken : List UInt8
  /-- What came back. -/
  reply : Except ConsoleFault (Option String)

namespace LineRead

/-- The reading that a reader makes at a console. -/
def make (reader : Reader) (console : Console) : LineRead :=
  ⟨reader, console.input.take (console.input.length - (reader.read console).2.input.length),
    (reader.read console).1⟩

/-- The session has read the exit command. -/
def IsExit (exitCommand : String) (reading : LineRead) : Prop :=
  reading.reader = .session ∧
    ∃ line, reading.reply = .ok (some line) ∧ CommandLine.read exitCommand line = .exit

/-- None of the readings was the exit command. -/
def NoExit (exitCommand : String) (readings : List LineRead) : Prop :=
  ∀ reading ∈ readings, ¬ reading.IsExit exitCommand

end LineRead

/-- A console with a record of what was read from it, oldest first. -/
structure Watched where
  /-- The console. -/
  console : Console
  /-- The record. -/
  readings : List LineRead

/-- The interpreter without the record. -/
def Interpreter.unwatched (i : Interpreter Watched) : Interpreter Console :=
  { i with host := i.host.console }

/-- The interpreter with a record. -/
def Interpreter.watched (i : Interpreter Console) (readings : List LineRead) :
    Interpreter Watched :=
  { i with host := ⟨i.host, readings⟩ }

namespace Watched

/-- Somebody asks for a line. It is put on record, unless the prompt could not be written and the
input was not touched. -/
def read (reader : Reader) (watched : Watched) : Watched :=
  ⟨(reader.read watched.console).2,
    if reader.prompts watched.console then
      watched.readings ++ [.make reader watched.console]
    else watched.readings⟩

/-- To a script a watched console is the console; whenever it asks for an answer, that is put on
record. -/
instance : Host Watched where
  execute command watched := { watched with console := Host.execute command watched.console }
  readAnswer watched := ((Host.readAnswer watched.console).1, watched.read .script)

end Watched

/-! ## Watched sessions -/

/-- A step of a watched session. -/
abbrev WatchedM (α : Type) : Type :=
  ExceptT Stop (StateM (Interpreter Watched)) α

namespace Watched

/-- A step that reads nothing leaves the record as it is. -/
def lift {α : Type} (step : SessionM α) : WatchedM α := fun i =>
  ((step i.unwatched).1, (step i.unwatched).2.watched i.host.readings)

/-- The session reads a line. -/
def readLine : WatchedM (Option String) := do
  let i ← get
  set { i with host := i.host.read .session }
  match (Reader.session.read i.host.console).1 with
  | .ok line => return line
  | .error fault => throw (.fault fault)

/-- Run something that the outside world asked for, and deal with it as a session does. -/
def perform {α : Type} (computation : Eval Watched α) : WatchedM Unit := do
  let i ← get
  let (outcome, j) := computation i
  set j
  lift (close outcome)

/-- Call a function in the root. -/
def invoke (fuel : Nat) (name : String) (args : List Value) : WatchedM Unit :=
  perform (callFunction fuel Scopes.rootId name args)

/-- Ask the user for functions to call, at most `rounds` times. -/
def askWithin (fuel : Nat) (exitCommand : String) : (rounds : Nat) → WatchedM Unit
  | 0 => throw .outOfFuel
  | rounds + 1 => do
    lift (onConsole (Console.message
      ("Enter a function to execute or enter '" ++ exitCommand ++ "': ")))
    match ← readLine with
    | none => return ()
    | some line =>
      match CommandLine.read exitCommand line with
      | .exit => lift (onConsole (Console.title "EXITING..."))
      | .empty => askWithin fuel exitCommand rounds
      | .call name args =>
        lift (onConsole Console.newLine)
        invoke fuel name args
        askWithin fuel exitCommand rounds

/-- Ask the user for functions to call until the exit command or the end of the input. -/
def ask (fuel : Nat) (exitCommand : String) : WatchedM Unit := do
  lift (onConsole (Console.title "BEGINNING OF THE GAME"))
  let i ← get
  askWithin fuel exitCommand (i.host.console.input.length + 1)

/-- A whole session that is watched. -/
def run (fuel : Nat) (options : SessionOptions) (script : Script) : WatchedM Unit := do
  lift (onConsole (Console.title "LAUNCHING THE INTERPRETER..."))
  perform (runScript fuel script)
  options.entryFunction.forM fun name => invoke fuel name []
  options.calls.forM fun name => invoke fuel name []
  if options.interactive then ask fuel options.exitCommand

/-! ## Faithful records -/

/-- The readings on record have taken the segments of the input in turn, and none of them came after
the exit command. -/
structure Faithful (input : List UInt8) (exitCommand : String) (watched : Watched) : Prop where
  /-- As many segments are gone as there are readings. -/
  left : watched.console.input =
    ((Console.segments input).drop watched.readings.length).flatten
  /-- Each reading took the segment in its place, and nothing behind the end of the input. -/
  taken : ∀ (n : Nat) (reading : LineRead), watched.readings[n]? = some reading →
    reading.taken = (Console.segments input)[n]?.getD []
  /-- Each reader got what there is in its place. -/
  gets : ∀ (n : Nat) (reading : LineRead), watched.readings[n]? = some reading →
    reading.reader.Gets (Console.segments input)[n]? reading.reply
  /-- An exit command is the last thing that was read. -/
  exit : ∀ (n : Nat) (reading : LineRead), watched.readings[n]? = some reading →
    reading.IsExit exitCommand → n + 1 = watched.readings.length

section Records

variable {input : List UInt8} {exitCommand : String} {watched : Watched} {reader : Reader}

/-- An empty record is faithful. -/
lemma faithful_start (console : Console) :
    Faithful console.input exitCommand ⟨console, []⟩ := by
  refine ⟨?_, by simp, by simp, by simp⟩
  rw [List.length_nil, List.drop_zero, Console.flatten_segments]

/-- Writing and the like keeps the record faithful. -/
lemma Faithful.of_input_eq (h : Faithful input exitCommand watched) {console : Console}
    (hinput : console.input = watched.console.input) :
    Faithful input exitCommand ⟨console, watched.readings⟩ :=
  ⟨hinput.trans h.left, h.taken, h.gets, h.exit⟩

/-- The reading behind others is the new one. -/
lemma getElem?_concat {readings : List LineRead} {last reading : LineRead} {n : Nat}
    (h : (readings ++ [last])[n]? = some reading) :
    readings[n]? = some reading ∨ n = readings.length ∧ reading = last := by
  rw [List.getElem?_append] at h
  split at h
  · exact .inl h
  · obtain ⟨hlt, hlast⟩ := List.getElem?_eq_some_iff.mp h
    rw [List.length_singleton] at hlt
    exact .inr ⟨by omega, by simpa using hlast.symm⟩

/-- What is in front of what is left has been taken. -/
lemma take_eq_of_append {before taken left : List UInt8} (h : before = taken ++ left) :
    before.take (before.length - left.length) = taken := by
  rw [h, List.length_append, Nat.add_sub_cancel, List.take_left]

/-- The reading that takes the segment in place `n`. -/
lemma make_in_turn {console : Console} {n : Nat} (hprompts : reader.prompts console = true)
    (hleft : console.input = ((Console.segments input).drop n).flatten) :
    (reader.read console).2.input = ((Console.segments input).drop (n + 1)).flatten ∧
      (LineRead.make reader console).taken = (Console.segments input)[n]?.getD [] ∧
      reader.Gets (Console.segments input)[n]? (LineRead.make reader console).reply := by
  obtain ⟨hgets, hinput⟩ := Reader.gets_read hprompts
  have hsegments : Console.segments console.input = (Console.segments input).drop n := by
    rw [hleft, Console.segments_flatten_drop]
  rw [hsegments, List.head?_drop] at hgets
  rw [hsegments, List.tail_drop] at hinput
  refine ⟨hinput, take_eq_of_append ?_, hgets⟩
  rw [hleft, hinput]
  -- Behind the last segment there is nothing, before the reading and after it.
  rcases Nat.lt_or_ge n (Console.segments input).length with hlt | hge
  · rw [List.drop_eq_getElem_cons hlt, List.flatten_cons, List.getElem?_eq_getElem hlt]
    rfl
  · rw [List.drop_eq_nil_of_le hge, List.drop_eq_nil_of_le (by omega),
      List.getElem?_eq_none hge]
    rfl

/-- **A reading takes the next segment**, and the record shows it. -/
lemma Faithful.read (h : Faithful input exitCommand watched)
    (hnone : LineRead.NoExit exitCommand watched.readings) (reader : Reader) :
    Faithful input exitCommand (watched.read reader) := by
  rw [Watched.read]
  split
  · next hprompts =>
    obtain ⟨hinput, htaken, hgets⟩ := make_in_turn hprompts h.left
    refine ⟨?_, ?_, ?_, ?_⟩
    · rwa [List.length_append]
    · intro n reading hreading
      rcases getElem?_concat hreading with hold | ⟨rfl, rfl⟩
      · exact h.taken n reading hold
      · exact htaken
    · intro n reading hreading
      rcases getElem?_concat hreading with hold | ⟨rfl, rfl⟩
      · exact h.gets n reading hold
      · exact hgets
    · intro n reading hreading hexit
      rcases getElem?_concat hreading with hold | ⟨rfl, rfl⟩
      · exact absurd hexit (hnone reading (List.mem_of_getElem? hold))
      · rw [List.length_append, List.length_singleton]
  · next hprompts =>
    exact h.of_input_eq (Reader.input_read_of_not_prompts (by simpa using hprompts))

/-- After a reading that was not the exit command there is still none. -/
lemma noExit_read (h : LineRead.NoExit exitCommand watched.readings)
    (hread : ¬ (LineRead.make reader watched.console).IsExit exitCommand) :
    LineRead.NoExit exitCommand (watched.read reader).readings := by
  rw [Watched.read]
  split
  · intro reading hreading
    rcases List.mem_append.mp hreading with hold | hnew
    · exact h reading hold
    · rwa [List.mem_singleton.mp hnew]
  · exact h

/-- The watched console is this one, its record is faithful, and the session has not read the exit
command. -/
structure Follows (input : List UInt8) (exitCommand : String) (console : Console)
    (watched : Watched) : Prop where
  /-- The consoles are the same. -/
  console : watched.console = console
  /-- The record is faithful. -/
  faithful : watched.Faithful input exitCommand
  /-- The exit command has not been read. -/
  noExit : LineRead.NoExit exitCommand watched.readings

/-- **To a script a watched console is the console.** -/
lemma bisimulation_follows (input : List UInt8) (exitCommand : String) :
    Host.Bisimulation (Follows input exitCommand) where
  execute := by
    rintro _ watched ⟨rfl, hfaithful, hnone⟩ command
    exact ⟨rfl, hfaithful.of_input_eq (Console.input_write _ _), hnone⟩
  answer := by
    rintro _ watched ⟨rfl, -, -⟩
    rfl
  next := by
    rintro _ watched ⟨rfl, hfaithful, hnone⟩
    refine ⟨rfl, hfaithful.read hnone .script, noExit_read hnone ?_⟩
    rintro ⟨hreader, -⟩
    cases hreader

end Records

/-! ## Steps that read nothing -/

/-- The step leaves a part of the state as it is. -/
def Keeps {ε S X α : Type} (part : S → X) (step : ExceptT ε (StateM S) α) : Prop :=
  ∀ s, part (step s).2 = part s

section Keeping

variable {ε S X α β : Type} {part : S → X}

/-- Steps that leave a part of the state alone do so one after the other. -/
lemma Keeps.bind {step : ExceptT ε (StateM S) α} {f : α → ExceptT ε (StateM S) β}
    (hstep : Keeps part step) (hf : ∀ a, Keeps part (f a)) : Keeps part (step >>= f) := by
  intro s
  have hfirst := hstep s
  rcases hs : step s with ⟨e | a, mid⟩
  · rw [bind_of_error hs]
    rwa [hs] at hfirst
  · rw [bind_of_ok hs, hf a mid]
    rwa [hs] at hfirst

/-- Writing leaves the input alone. -/
lemma keeps_write (text : String) : Keeps Console.input (Console.write text) :=
  Console.input_write text

/-- Writing a title leaves the input alone. -/
lemma keeps_title (text : String) : Keeps Console.input (Console.title text) :=
  (keeps_write _).bind fun _ => (keeps_write _).bind fun _ => keeps_write _

/-- Writing a report leaves the input alone. -/
lemma keeps_complain (text : String) : Keeps Console.input (Console.complain text) := by
  intro console
  rw [Console.complain, get_bind_apply]
  rcases console.diagnostics.write (text ++ "\n") with ⟨_ | _, sink⟩ <;> rfl

/-- The input that is left for a session and its script. -/
def inputOf (i : Interpreter Console) : List UInt8 :=
  i.host.input

/-- What a session does with its console changes the console only, and a fault of the console stops
the session. -/
lemma onConsole_apply (action : ConsoleM α) (i : Interpreter Console) :
    onConsole action i =
      ((action i.host).1.mapError .fault, { i with host := (action i.host).2 }) := by
  rw [onConsole, get_bind_apply]
  rcases action i.host with ⟨_ | _, console⟩ <;> rfl

/-- A session leaves the input alone if what it does with its console does. -/
lemma keeps_onConsole {action : ConsoleM α} (h : Keeps Console.input action) :
    Keeps inputOf (onConsole action) := by
  intro i
  rw [onConsole_apply]
  exact h i.host

/-- Writing all reports leaves the input alone. -/
lemma keeps_flushErrors : Keeps inputOf flushErrors := by
  have hcomplaints : ∀ errors : List RuntimeError, Keeps inputOf
      (errors.forM fun error => onConsole (Console.complain error.message)) := by
    intro errors
    induction errors with
    | nil => exact fun _ => rfl
    | cons error errors ih => exact (keeps_onConsole (keeps_complain _)).bind fun _ => ih
  exact fun i => hcomplaints i.errors i.clearErrors

/-- What a session does after a call leaves the input alone. -/
lemma keeps_close (outcome : Outcome α) : Keeps inputOf (close outcome) := by
  cases outcome with
  | done _ => exact keeps_flushErrors
  | exitRequested =>
    exact keeps_flushErrors.bind fun _ => (keeps_onConsole (keeps_write _)).bind fun _ =>
      keeps_onConsole (keeps_write _)
  | outOfFuel => exact fun _ => rfl

end Keeping

/-! ## Watching changes nothing -/

section Shadows

variable {α β : Type} {input : List UInt8} {exitCommand : String} {P : List LineRead → Prop}
  {Q : α → List LineRead → Prop} {T : β → List LineRead → Prop}

/-- From faithful records with one property on, the watched step goes as the step does, unless that
runs out of fuel. The record stays faithful, and if the step goes well it has the other property. -/
def Shadows (input : List UInt8) (exitCommand : String) (P : List LineRead → Prop)
    (Q : α → List LineRead → Prop) (watched : WatchedM α) (step : SessionM α) : Prop :=
  ∀ (i : Interpreter Watched) (result : Except Stop α) (k : Interpreter Console),
    i.host.Faithful input exitCommand → P i.host.readings → step i.unwatched = (result, k) →
      result ≠ .error .outOfFuel →
        ∃ readings, watched i = (result, k.watched readings) ∧
          Faithful input exitCommand ⟨k.host, readings⟩ ∧ ∀ a, result = .ok a → Q a readings

/-- More may be asked of the record before a step and less after it. -/
lemma Shadows.mono {watched : WatchedM α} {step : SessionM α} {P' : List LineRead → Prop}
    {Q' : α → List LineRead → Prop} (h : Shadows input exitCommand P Q watched step)
    (hP : ∀ readings, P' readings → P readings) (hQ : ∀ a readings, Q a readings → Q' a readings) :
    Shadows input exitCommand P' Q' watched step := by
  intro i result k hfaithful hP' hrun hfinished
  obtain ⟨readings, hwatched, hfaithful', hgood⟩ :=
    h i result k hfaithful (hP _ hP') hrun hfinished
  exact ⟨readings, hwatched, hfaithful', fun a ha => hQ a readings (hgood a ha)⟩

/-- A step that does nothing is watched as it is. -/
lemma shadows_pure {a : α} (h : ∀ readings, P readings → Q a readings) :
    Shadows input exitCommand P Q (pure a) (pure a) := by
  rintro i _ _ hfaithful hP ⟨⟩ -
  refine ⟨i.host.readings, rfl, hfaithful, ?_⟩
  rintro _ ⟨⟩
  exact h _ hP

/-- Of a step that runs out of fuel nothing is asked. -/
lemma shadows_outOfFuel (watched : WatchedM α) :
    Shadows input exitCommand P Q watched (throw .outOfFuel) := by
  rintro i _ _ - - ⟨⟩ hfinished
  exact absurd rfl hfinished

/-- Steps that are watched one after the other: what the record is known to be after the first is
what is asked of it before the second. -/
lemma Shadows.bind {watched : WatchedM α} {step : SessionM α} {g : α → WatchedM β}
    {f : α → SessionM β} (hstep : Shadows input exitCommand P Q watched step)
    (hf : ∀ a, Shadows input exitCommand (Q a) T (g a) (f a)) :
    Shadows input exitCommand P T (watched >>= g) (step >>= f) := by
  intro i result k hfaithful hP hrun hfinished
  rcases hfirst : step i.unwatched with ⟨stop | a, mid⟩
  · -- The step fails, and so do both sequences.
    rw [bind_of_error hfirst] at hrun
    obtain ⟨rfl, rfl⟩ := Prod.mk.inj hrun
    have hstop : (.error stop : Except Stop α) ≠ .error .outOfFuel := by
      rintro ⟨⟩
      exact hfinished rfl
    obtain ⟨readings, hwatched, hfaithful', -⟩ := hstep i _ mid hfaithful hP hfirst hstop
    exact ⟨readings, bind_of_error hwatched, hfaithful', by rintro _ ⟨⟩⟩
  · rw [bind_of_ok hfirst] at hrun
    obtain ⟨readings, hwatched, hfaithful', hQ⟩ :=
      hstep i _ mid hfaithful hP hfirst (by rintro ⟨⟩)
    rw [bind_of_ok hwatched]
    exact hf a (mid.watched readings) result k hfaithful' (hQ a rfl) hrun hfinished

/-- A step that reads nothing. -/
lemma shadows_lift {step : SessionM α} (h : Keeps inputOf step) :
    Shadows input exitCommand P (fun _ => P) (lift step) step := by
  rintro i result k hfaithful hP hrun -
  have hinput := h i.unwatched
  refine ⟨i.host.readings, ?_, ?_, fun _ _ => hP⟩
  · rw [lift, hrun]
  · rw [hrun] at hinput
    exact hfaithful.of_input_eq hinput

/-- Where the session reads a line, it gets what the console gives, and the reading is on record. -/
lemma readLine_apply (i : Interpreter Watched) :
    readLine i = ((Console.readLine i.host.console).1.mapError .fault,
      { i with host := i.host.read .session }) := by
  rw [readLine, get_bind_apply, Reader.read]
  rcases Console.readLine i.host.console with ⟨_ | _, console⟩ <;> rfl

/-- **The session reads a line.** If it is not the exit command, then none has been read. -/
lemma shadows_readLine :
    Shadows input exitCommand (LineRead.NoExit exitCommand)
      (fun found readings => (∀ line ∈ found, CommandLine.read exitCommand line ≠ .exit) →
        LineRead.NoExit exitCommand readings)
      readLine (onConsole Console.readLine) := by
  rintro i _ _ hfaithful hnone hrun -
  rw [onConsole_apply] at hrun
  obtain ⟨rfl, rfl⟩ := Prod.mk.inj hrun
  refine ⟨(i.host.read .session).readings, readLine_apply i, hfaithful.read hnone .session, ?_⟩
  intro found hfound hother
  refine noExit_read hnone ?_
  rintro ⟨-, line, hreply, hexit⟩
  have hline : (Console.readLine i.host.console).1 = .ok (some line) := hreply
  have hsome : (Console.readLine i.unwatched.host).1.mapError Stop.fault = .ok (some line) :=
    congrArg (Except.mapError Stop.fault) hline
  rw [hsome] at hfound
  exact hother line (Except.ok.inj hfound).symm hexit

/-- **A script runs.** If it ends, it goes over the watched console as over the console. -/
lemma shadows_perform {computation : Eval Console α} {watched : Eval Watched α}
    (h : Eval.Simulated (Interpreter.Over (Follows input exitCommand)) computation watched) :
    Shadows input exitCommand (LineRead.NoExit exitCommand)
      (fun _ => LineRead.NoExit exitCommand) (perform watched) (Session.perform computation) := by
  intro i result k hfaithful hnone hrun hfinished
  rcases hcomputation : computation i.unwatched with ⟨outcome, j⟩
  rw [perform_apply hcomputation] at hrun
  have hends : outcome.Ends := by
    cases outcome with
    | done _ => trivial
    | exitRequested => trivial
    -- A session whose script runs out of fuel does so too.
    | outOfFuel =>
      obtain ⟨rfl, -⟩ := Prod.mk.inj hrun
      exact hfinished rfl
  have hover : Interpreter.Over (Follows input exitCommand) i.unwatched i :=
    ⟨rfl, ⟨rfl, hfaithful, hnone⟩, rfl, rfl, rfl⟩
  obtain ⟨⟨_, ⟨_, readings⟩, _, _, _⟩, hwatched, ⟨rfl, ⟨rfl, hfaithful', hnone'⟩, rfl, rfl, rfl⟩⟩ :=
    h.exists_eq hover hcomputation hends
  have hperform : perform watched i = lift (close outcome) (j.watched readings) := by
    rw [perform, get_bind_apply, hwatched]
    rfl
  rw [hperform]
  exact shadows_lift (keeps_close outcome) _ result k hfaithful' hnone' hrun hfinished

/-! ## Whole sessions -/

/-- A watched call of a function goes as the call does, and reads no exit command. -/
lemma shadows_invoke (fuel : Nat) (name : String) (args : List Value) :
    Shadows input exitCommand (LineRead.NoExit exitCommand)
      (fun _ => LineRead.NoExit exitCommand) (invoke fuel name args)
      (Session.invoke fuel name args) :=
  shadows_perform (((simulation_over (bisimulation_follows input exitCommand)).simulatesWithin
    (Nat.le_refl fuel)).callFunction Scopes.rootId name args)

/-- Watched calls of some functions, one after the other, go as the calls do, and read no exit
command. -/
lemma shadows_invokeAll (fuel : Nat) (names : List String) :
    Shadows input exitCommand (LineRead.NoExit exitCommand)
      (fun _ => LineRead.NoExit exitCommand) (names.forM fun name => invoke fuel name [])
      (names.forM fun name => Session.invoke fuel name []) := by
  induction names with
  | nil => exact shadows_pure fun _ hnone => hnone
  | cons name names ih => exact (shadows_invoke fuel name []).bind fun _ => ih

/-- A step that only writes. -/
lemma shadows_console {action : ConsoleM α} (h : Keeps Console.input action) :
    Shadows input exitCommand P (fun _ => P) (lift (onConsole action)) (onConsole action) :=
  shadows_lift (keeps_onConsole h)

/-- **The user is asked.** The exit command ends the asking, so that nothing is read after it. -/
lemma shadows_askWithin (fuel rounds : Nat) :
    Shadows input exitCommand (LineRead.NoExit exitCommand) (fun _ _ => True)
      (askWithin fuel exitCommand rounds) (Session.askWithin fuel exitCommand rounds) := by
  induction rounds with
  | zero => exact shadows_outOfFuel _
  | succ rounds ih =>
    refine (shadows_console (keeps_write _)).bind fun _ => shadows_readLine.bind fun found => ?_
    cases found with
    | none => exact shadows_pure fun _ _ => trivial
    | some line =>
      cases hread : CommandLine.read exitCommand line with
      | exit =>
        -- The exit command is on record, but from here on there is only writing.
        simp only [hread]
        exact (shadows_console (keeps_title _)).mono (fun _ h => h) fun _ _ _ => trivial
      | empty =>
        simp only [hread]
        exact ih.mono (fun _ h => h (by simp [hread])) fun _ _ h => h
      | call name args =>
        simp only [hread]
        refine Shadows.mono ?_ (fun _ h => h (by simp [hread])) fun _ _ h => h
        exact (shadows_console (keeps_write _)).bind fun _ =>
          (shadows_invoke fuel name args).bind fun _ => ih

/-- A watched session asks the user as the session does. -/
lemma shadows_ask (fuel : Nat) :
    Shadows input exitCommand (LineRead.NoExit exitCommand) (fun _ _ => True)
      (ask fuel exitCommand) (Session.ask fuel exitCommand) := by
  refine (shadows_console (keeps_title _)).bind fun _ i => ?_
  exact shadows_askWithin fuel (i.host.console.input.length + 1) i

/-- **A watched session goes as the session does.** -/
lemma shadows_run (fuel : Nat) (options : SessionOptions) (script : Script) :
    Shadows input options.exitCommand (LineRead.NoExit options.exitCommand) (fun _ _ => True)
      (run fuel options script) (Session.run fuel options script) := by
  have hscript := (simulation_over (bisimulation_follows input options.exitCommand)).simulatesWithin
    (Nat.le_refl fuel)
  refine (shadows_console (keeps_title _)).bind fun _ =>
    (shadows_perform (hscript.runScript fun _ _ => trivial)).bind fun _ => Shadows.bind ?_ fun _ =>
      (shadows_invokeAll fuel options.calls).bind fun _ => ?_
  · cases options.entryFunction with
    | none => exact shadows_pure fun _ h => h
    | some name => exact shadows_invoke fuel name []
  · cases options.interactive with
    | true => exact shadows_ask fuel
    | false => exact shadows_pure fun _ _ => trivial

end Shadows

end Watched

/-- **Every segment is read once, and in order.** An input falls into segments, each of which ends
with its only line feed; the last one may lack it.

Let any readers ask a console with this input for lines, in any order, and let the prompts before
that be written. The reader in place `k` takes the segment in place `k` and nothing else. If it is a
text, it gets that without the line feeds and carriage returns at its end; if not, a session gets a
fault and a script no answer. Readers behind the last segment get no line and take nothing.

So it is in a session, whatever its script does. If the session ends, well or with a fault, watching
it changes neither the result nor the interpreter that it leaves, and the readings that the session
and its script have made have together taken the segments of the input in turn. If one of them was
the exit command, it was the last.

**Proof sketch.** One reading takes the next segment (`Reader.gets_read`), and from this both parts
follow by induction: for readers one after the other (`Reader.gets_in_turn`), and along the steps of
a session, for which the record stays faithful (`Watched.Faithful.read`, `Watched.shadows_run`). -/
theorem input_taken_in_turn (input : List UInt8) :
    ((Console.segments input).flatten = input ∧
      ∀ (k : Nat) (segment : List UInt8), (Console.segments input)[k]? = some segment →
        ∃ body, (10 : UInt8) ∉ body ∧ (segment = body ++ [10] ∨
          segment = body ∧ body ≠ [] ∧ k + 1 = (Console.segments input).length)) ∧
    (∀ (console : Console) (readers : List Reader), console.input = input →
      Reader.allPrompt readers console = true →
        ∀ (k : Nat) (reader : Reader), readers[k]? = some reader →
          let before := Reader.after (readers.take k) console
          reader.Gets (Console.segments input)[k]? (reader.read before).1 ∧
            before.input = ((Console.segments input).drop k).flatten ∧
            (reader.read before).2.input = ((Console.segments input).drop (k + 1)).flatten) ∧
    ∀ (fuel limit : Nat) (options : SessionOptions) (script : Script)
      (outputLimit diagnosticsLimit : Option Nat) (globals : List (String × Value))
      (result : Except Stop Unit) (k : Interpreter Console),
      Session.run fuel options script
          (.fresh (.new input outputLimit diagnosticsLimit) limit globals) = (result, k) →
        result ≠ .error .outOfFuel →
          ∃ readings : List LineRead,
            Watched.run fuel options script
                (.fresh ⟨.new input outputLimit diagnosticsLimit, []⟩ limit globals) =
              (result, k.watched readings) ∧
            Watched.Faithful input options.exitCommand ⟨k.host, readings⟩ := by
  refine ⟨⟨Console.flatten_segments input, fun _ _ => Console.segments_shape input⟩, ?_, ?_⟩
  · rintro console readers rfl hprompts k reader hreader
    exact Reader.gets_in_turn hprompts hreader
  · intro fuel limit options script outputLimit diagnosticsLimit globals result k hrun hfinished
    let host : Watched := ⟨.new input outputLimit diagnosticsLimit, []⟩
    obtain ⟨readings, hwatched, hfaithful, -⟩ := Watched.shadows_run fuel options script
      (.fresh host limit globals) result k (Watched.faithful_start host.console)
      (fun _ hreading => nomatch hreading) hrun hfinished
    exact ⟨readings, hwatched, hfaithful⟩

/-- A script with a function that asks for an answer. -/
def asking : Script :=
  ⟨"asking", [.declare "ask" [] [.ret (some (.call "puppetevent" []))]], []⟩

/-- The user asks for the function twice. The first answer is no text, the second one stands before
two carriage returns. Behind a blank line comes the exit command, and something behind it. -/
def askingInput : List UInt8 :=
  Console.typed ["ask"] ++ [0xff, 10] ++ Console.typed ["ask", "7\r\r", "", " EXIT", "more"]

/-- The session and its script take turns, and what stands behind the exit command is left. -/
theorem input_taken_in_turn_asking :
    let console := Console.new askingInput none none
    (Reader.script.Gets (some [0xff, 10]) (.ok none) ∧
        (Reader.after [.session, .script] console).input =
          Console.typed ["ask", "7\r\r", "", " EXIT", "more"]) ∧
      ∃ (k : Interpreter Console) (readings : List LineRead),
        Session.run 5 ⟨"exit", none, [], true⟩ asking (.fresh console 3 []) = (.ok (), k) ∧
          Watched.run 5 ⟨"exit", none, [], true⟩ asking (.fresh ⟨console, []⟩ 3 []) =
            (.ok (), k.watched readings) ∧
          readings.map LineRead.reader =
            [.session, .script, .session, .script, .session, .session] ∧
          Watched.Faithful askingInput "exit" ⟨k.host, readings⟩ ∧
          k.host.input = Console.typed ["more"] := by
  intro console
  obtain ⟨-, hreaders, hsessions⟩ := input_taken_in_turn askingInput
  refine ⟨?_, ?_⟩
  · obtain ⟨hgets, -, hleft⟩ :=
      hreaders console [.session, .script] rfl (by decide +kernel) 1 .script rfl
    have hsegment : (Console.segments askingInput)[1]? = some [0xff, 10] := by decide +kernel
    have hreply : (Host.readAnswer (Reader.after [.session] console)).1 = none := by decide +kernel
    have htyped : ((Console.segments askingInput).drop 2).flatten =
        Console.typed ["ask", "7\r\r", "", " EXIT", "more"] := by
      decide +kernel
    rw [hsegment] at hgets
    exact ⟨hreply ▸ hgets, hleft.trans htyped⟩
  · have hwell : (Session.run 5 ⟨"exit", none, [], true⟩ asking
        (.fresh console 3 [])).1.isOk = true := by
      decide +kernel
    have hreadings : (Watched.run 5 ⟨"exit", none, [], true⟩ asking
        (.fresh ⟨console, []⟩ 3 [])).2.host.readings.map LineRead.reader =
        [.session, .script, .session, .script, .session, .session] := by
      decide +kernel
    have hmore : ((Console.segments askingInput).drop 6).flatten = Console.typed ["more"] := by
      decide +kernel
    rcases hrun : Session.run 5 ⟨"exit", none, [], true⟩ asking (.fresh console 3 []) with
      ⟨stop | _, k⟩
    · rw [hrun] at hwell
      cases hwell
    · obtain ⟨readings, hrecord, hfaithful⟩ :=
        hsessions 5 3 ⟨"exit", none, [], true⟩ asking none none [] (.ok ()) k hrun (by rintro ⟨⟩)
      have hwatched : Watched.run 5 ⟨"exit", none, [], true⟩ asking (.fresh ⟨console, []⟩ 3 []) =
        (.ok (), k.watched readings) := hrecord
      rw [hwatched] at hreadings
      have hcount : readings.length = 6 := by
        rw [← List.length_map LineRead.reader]
        exact congrArg List.length hreadings
      refine ⟨k, readings, rfl, hwatched, hreadings, hfaithful, ?_⟩
      rw [← hmore, ← hcount]
      exact hfaithful.left

end DialogueScript
