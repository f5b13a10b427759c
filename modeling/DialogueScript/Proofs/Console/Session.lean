import DialogueScript.Console.Session
import DialogueScript.Proofs.Console.Interchange
import DialogueScript.Proofs.Interpreter.Moment

set_option autoImplicit false

/-!
# Sessions, call by call

A session makes one call after the other of the same interpreter: first of the script as a whole,
then of the functions that were named in advance, then of those that the user asks for. Reports pile
up while a call is running, however deep they come from, and the session takes them away and writes
them when the call is over, whether it returned or asked to exit. So every call begins with no
reports and with no frame but the root, and what stands in the diagnostics are the reports of all
calls, each of them once and in order. A call that asked to exit is followed by a line that says so,
and then the session goes on as after any other.

All of this is said of sessions that end well. Then everything that the session itself writes has
been written.

## Main definitions

* `DialogueScript.Invocation` — a call of the outside world and what it left.
* `DialogueScript.Invocation.closed` — the interpreter when the session has dealt with it.
* `DialogueScript.Session.Performs`, `DialogueScript.Session.Converses` — calls made in advance and
  calls that the user asks for.

## Main results

* `DialogueScript.Evolves.diagnostics_eq` — a running script does not write to the diagnostics.
* `DialogueScript.Session.exists_invocation` — how a session makes a call.
* `DialogueScript.session_reports_each_once` — sessions report every fault once and survive exits.
-/

namespace DialogueScript

/-! ## Steps that may fail -/

section Steps

variable {ε S α β : Type} {p : ExceptT ε (StateM S) α} {f : α → ExceptT ε (StateM S) β}

/-- A step may look at the state first. -/
lemma get_bind_apply (f : S → ExceptT ε (StateM S) β) (s : S) : (get >>= f) s = f s s :=
  rfl

/-- Behind a step that ends well comes the next one, from the state it has left. -/
lemma bind_of_ok {s mid : S} {a : α} (h : p s = (.ok a, mid)) : (p >>= f) s = f a mid := by
  simp only [bind, ExceptT.bind, ExceptT.mk, StateT.bind, h, ExceptT.bindCont]

/-- Behind a step that fails nothing comes. -/
lemma bind_of_error {s mid : S} {e : ε} (h : p s = (.error e, mid)) :
    (p >>= f) s = (.error e, mid) := by
  simp only [bind, ExceptT.bind, ExceptT.mk, StateT.bind, h, ExceptT.bindCont]
  rfl

/-- A sequence of steps that ends well is made of steps that do. -/
lemma exists_of_bind_ok {s t : S} {b : β} (h : (p >>= f) s = (.ok b, t)) :
    ∃ a mid, p s = (.ok a, mid) ∧ f a mid = (.ok b, t) := by
  rcases hp : p s with ⟨e | a, mid⟩
  · rw [bind_of_error hp] at h
    cases (Prod.mk.inj h).1
  · rw [bind_of_ok hp] at h
    exact ⟨a, mid, rfl, h⟩

end Steps

/-! ## What a console does -/

namespace Console

/-- The console with a text behind what has been written to its diagnostics. -/
def noted (console : Console) (text : String) : Console :=
  { console with
    diagnostics :=
      { console.diagnostics with written := console.diagnostics.written ++ text.toUTF8 } }

/-- Texts one behind the other are bytes one behind the other. -/
lemma toUTF8_append (a b : String) : (a ++ b).toUTF8 = a.toUTF8 ++ b.toUTF8 := by
  simp only [String.toUTF8_eq_toByteArray, String.toByteArray_append]

/-- Printing two texts is printing them as one. -/
lemma printed_printed (console : Console) (a b : String) :
    (console.printed a).printed b = console.printed (a ++ b) := by
  simp only [printed, toUTF8_append, ByteArray.append_assoc]

/-- Noting two texts is noting them as one. -/
lemma noted_noted (console : Console) (a b : String) :
    (console.noted a).noted b = console.noted (a ++ b) := by
  simp only [noted, toUTF8_append, ByteArray.append_assoc]

/-- An empty text leaves no trace on the output. -/
lemma printed_empty (console : Console) : console.printed "" = console := by
  simp only [printed, String.toUTF8_eq_toByteArray, String.toByteArray_empty,
    ByteArray.append_empty]

/-- An empty text leaves no trace in the diagnostics. -/
lemma noted_empty (console : Console) : console.noted "" = console := by
  simp only [noted, String.toUTF8_eq_toByteArray, String.toByteArray_empty,
    ByteArray.append_empty]

variable {console next : Console} {text : String}

/-- A write that fits keeps all bytes. -/
lemma eq_of_write_fits {sink sink' : Sink} (h : sink.write text = (true, sink')) :
    sink' = { sink with written := sink.written ++ text.toUTF8 } := by
  obtain ⟨limit, written⟩ := sink
  cases limit with
  | none =>
    obtain ⟨-, rfl⟩ := Prod.mk.inj h
    rfl
  | some limit =>
    simp only [Sink.write, Sink.writeBytes] at h
    split at h
    · obtain ⟨-, rfl⟩ := Prod.mk.inj h
      rfl
    · cases (Prod.mk.inj h).1

/-- A write that succeeds has written the whole text. -/
lemma eq_printed_of_write (h : write text console = (.ok (), next)) :
    next = console.printed text := by
  rw [write, get_bind_apply] at h
  rcases hsink : console.output.write text with ⟨_ | _, sink⟩
  · rw [hsink] at h
    cases (Prod.mk.inj h).1
  · rw [hsink] at h
    obtain ⟨-, rfl⟩ := Prod.mk.inj h
    rw [eq_of_write_fits hsink]
    rfl

/-- A report that could be written stands on a line of the diagnostics. -/
lemma eq_noted_of_complain (h : complain text console = (.ok (), next)) :
    next = console.noted (text ++ "\n") := by
  rw [complain, get_bind_apply] at h
  rcases hsink : console.diagnostics.write (text ++ "\n") with ⟨_ | _, sink⟩
  · rw [hsink] at h
    cases (Prod.mk.inj h).1
  · rw [hsink] at h
    obtain ⟨-, rfl⟩ := Prod.mk.inj h
    rw [eq_of_write_fits hsink]
    rfl

/-- A title as it is written. -/
def titleText (text : String) : String :=
  "\n=== " ++ text ++ " ===\n\n"

/-- A title that could be written stands on the output between empty lines. -/
lemma eq_printed_of_title (h : title text console = (.ok (), next)) :
    next = console.printed (titleText text) := by
  obtain ⟨_, first, hfirst, h⟩ := exists_of_bind_ok h
  obtain ⟨_, second, hsecond, hthird⟩ := exists_of_bind_ok h
  rw [eq_printed_of_write hthird, eq_printed_of_write hsecond, eq_printed_of_write hfirst,
    printed_printed, printed_printed]
  congr 1
  apply String.toList_inj.mp
  simp [titleText]

/-! ## What scripts leave alone -/

/-- A write to the output leaves the diagnostics alone. -/
lemma diagnostics_write (text : String) (console : Console) :
    (write text console).2.diagnostics = console.diagnostics := by
  rw [write, get_bind_apply]
  rcases console.output.write text with ⟨_ | _, sink⟩ <;> rfl

/-- Reading a line leaves the diagnostics alone. -/
lemma diagnostics_readLine (console : Console) :
    (readLine console).2.diagnostics = console.diagnostics := by
  rw [readLine, get_bind_apply]
  by_cases hend : console.input.isEmpty = true
  · rw [if_pos hend]
    show console.starve.diagnostics = console.diagnostics
    rw [starve]
    split <;> rfl
  · rw [if_neg hend]
    rcases takeSegment console.input with ⟨segment, rest⟩
    cases hline : segmentText? segment with
    | none => simp only [hline]; rfl
    | some line => simp only [hline]; rfl

/-- Asking for an answer leaves the diagnostics alone. -/
lemma diagnostics_readAnswer (console : Console) :
    (Host.readAnswer console).2.diagnostics = console.diagnostics := by
  have hprompt : (promptLine console).2.diagnostics = console.diagnostics := by
    have hwrite := diagnostics_write answerPrompt console
    rcases hw : write answerPrompt console with ⟨_ | _, next⟩
    · rw [hw] at hwrite
      rw [promptLine, bind_of_error hw]
      exact hwrite
    · rw [hw] at hwrite
      rw [promptLine, bind_of_ok hw, diagnostics_readLine]
      exact hwrite
  simp only [Host.readAnswer]
  split
  · next hp => rwa [hp] at hprompt
  · next hp => rwa [hp] at hprompt

end Console

/-- **A running script does not write to the diagnostics.** -/
lemma Evolves.diagnostics_eq {Called : String → Prop} {scope : ScopeId}
    {i j : Interpreter Console} (h : Evolves Called scope i j) :
    j.host.diagnostics = i.host.diagnostics := by
  induction h with
  | refl => rfl
  | trans _ _ ihij ihjk => exact ihjk.trans ihij
  | define _ _ _ => rfl
  | declare _ _ _ => rfl
  | register _ => rfl
  | report _ => rfl
  | @command _ i command => exact Console.diagnostics_write _ i.host
  | @answer _ i => exact Console.diagnostics_readAnswer i.host
  | call _ _ ih => exact ih

/-! ## Calls of the outside world -/

/-- The lines that say what went wrong. -/
def RuntimeError.reportText (errors : List RuntimeError) : String :=
  String.join (errors.map fun error => error.message ++ "\n")

/-- What a session writes after a call because of the way it ended. -/
def Outcome.farewell {α : Type} : Outcome α → String
  | .exitRequested => "\nFunction ended\n"
  | .done _ => ""
  | .outOfFuel => ""

/-- A call of the outside world and what it left. -/
structure Invocation where
  /-- What is to be done. -/
  job : Job
  /-- The interpreter that begins with it. -/
  before : Interpreter Console
  /-- How it ends. -/
  outcome : Outcome Unit
  /-- The interpreter when it has ended. -/
  after : Interpreter Console
  /-- The faults that were reported meanwhile. -/
  reported : List RuntimeError

namespace Invocation

/-- The call was made in the root, followed to its end, and reported these faults. -/
structure Made (fuel : Nat) (call : Invocation) : Prop where
  /-- It went this way. -/
  run : call.job.run fuel Scopes.rootId call.before = (call.outcome, call.after)
  /-- It came to an end. -/
  ends : call.outcome.Ends
  /-- It reported these faults. -/
  reported : call.after.errors = call.before.errors ++ call.reported

/-- The interpreter when the session has dealt with a call: the reports have been taken away and
written, and if the script asked to exit the session has said so. -/
def closed (call : Invocation) : Interpreter Console :=
  { call.after with
    errors := []
    host := (call.after.host.noted (RuntimeError.reportText call.reported)).printed
      call.outcome.farewell }

end Invocation

/-- No report is left, and the root is the only frame. -/
def Interpreter.Clean (i : Interpreter Console) : Prop :=
  i.errors = [] ∧ i.scopes.depth = 1

namespace Session

variable {α : Type} {i k : Interpreter Console} {fuel : Nat}

/-- Where a session has used its console with success, the console has done so and nothing else is
changed. -/
lemma exists_of_onConsole_ok {action : ConsoleM α} {a : α}
    (h : onConsole action i = (.ok a, k)) :
    ∃ console, action i.host = (.ok a, console) ∧ k = { i with host := console } := by
  rw [onConsole, get_bind_apply] at h
  rcases haction : action i.host with ⟨fault | b, console⟩
  · rw [haction] at h
    cases (Prod.mk.inj h).1
  · rw [haction] at h
    obtain ⟨hb, rfl⟩ := Prod.mk.inj h
    obtain rfl := Except.ok.inj hb
    exact ⟨console, rfl, rfl⟩

/-- Reports that could all be written have been written one after the other. -/
lemma eq_of_complaints {errors : List RuntimeError}
    (h : (errors.forM fun error => onConsole (Console.complain error.message)) i = (.ok (), k)) :
    k = { i with host := i.host.noted (RuntimeError.reportText errors) } := by
  induction errors generalizing i with
  | nil =>
    obtain ⟨-, rfl⟩ := Prod.mk.inj h
    rw [RuntimeError.reportText, List.map_nil, String.join_nil, Console.noted_empty]
  | cons error errors ih =>
    obtain ⟨_, mid, hfirst, hlater⟩ := exists_of_bind_ok h
    obtain ⟨console, hcomplain, rfl⟩ := exists_of_onConsole_ok hfirst
    rw [ih hlater, Console.eq_noted_of_complain hcomplain, Console.noted_noted]
    simp only [RuntimeError.reportText, List.map_cons, String.join_cons]

/-- When all reports could be written, they stand in the diagnostics and have been taken away. -/
lemma eq_of_flushErrors (h : flushErrors i = (.ok (), k)) :
    k = { i with errors := [], host := i.host.noted (RuntimeError.reportText i.errors) } :=
  eq_of_complaints (i := i.clearErrors) h

/-- What a session does when a call has ended. -/
def close : Outcome α → SessionM Unit
  | .done _ => flushErrors
  | .exitRequested => do
    flushErrors
    onConsole Console.newLine
    onConsole (Console.message "Function ended")
  | .outOfFuel => throw .outOfFuel

/-- When a session has run something, it deals with the outcome. -/
lemma perform_apply {p : Eval Console α} {outcome : Outcome α} (h : p i = (outcome, k)) :
    perform p i = close outcome k := by
  rw [perform, get_bind_apply, h]
  cases outcome <;> rfl

/-- A session deals with a call in the same way whatever its result is. -/
lemma perform_discard (p : Eval Console α) : perform (p >>= fun _ => pure ()) = perform p := by
  funext i
  rcases hp : p i with ⟨a | _ | _, j⟩
  · have hdone : (p >>= fun _ => pure ()) i = (.done (), j) := Eval.bind_of_done hp
    rw [perform_apply hp, perform_apply hdone]
    rfl
  · rw [perform_apply hp, perform_apply (Eval.bind_of_exitRequested hp)]
    rfl
  · rw [perform_apply hp, perform_apply (Eval.bind_of_outOfFuel hp)]
    rfl

/-- **What a session has done when it has dealt with a call**: the call is over, its reports have
been taken away and written, and if the script asked to exit the session has said so. -/
lemma eq_of_close {outcome : Outcome α} (h : close outcome i = (.ok (), k)) :
    outcome.Ends ∧ k =
      { i with
        errors := []
        host := (i.host.noted (RuntimeError.reportText i.errors)).printed outcome.farewell } := by
  cases outcome with
  | done _ =>
    rw [eq_of_flushErrors h, Outcome.farewell, Console.printed_empty]
    exact ⟨trivial, rfl⟩
  | exitRequested =>
    obtain ⟨_, flushed, hflush, h⟩ := exists_of_bind_ok h
    obtain ⟨_, mid, hblank, hmessage⟩ := exists_of_bind_ok h
    obtain ⟨first, hfirst, rfl⟩ := exists_of_onConsole_ok hblank
    obtain ⟨second, hsecond, rfl⟩ := exists_of_onConsole_ok hmessage
    rw [Console.eq_printed_of_write hsecond, Console.eq_printed_of_write hfirst,
      Console.printed_printed, eq_of_flushErrors hflush]
    exact ⟨trivial, rfl⟩
  | outOfFuel => cases (Prod.mk.inj h).1

/-- **How a session makes a call**: from an interpreter without reports, it goes on with the one
that is there when it has dealt with the call. -/
lemma exists_invocation {job : Job} (hi : i.errors = [])
    (h : perform (job.run fuel Scopes.rootId) i = (.ok (), k)) :
    ∃ call : Invocation, call.Made fuel ∧ call.job = job ∧ call.before = i ∧ call.closed = k := by
  rcases hrun : job.run fuel Scopes.rootId i with ⟨outcome, j⟩
  rw [perform_apply hrun] at h
  obtain ⟨hends, rfl⟩ := eq_of_close h
  have hreported : j.errors = i.errors ++ j.errors := by rw [hi, List.nil_append]
  exact ⟨⟨job, i, outcome, j, j.errors⟩, ⟨hrun, hends, hreported⟩, rfl, rfl, rfl⟩

/-- How a session calls a function: as it makes any call. -/
lemma exists_invocation_of_invoke {name : String} {args : List Value} (hi : i.errors = [])
    (h : invoke fuel name args i = (.ok (), k)) :
    ∃ call : Invocation, call.Made fuel ∧ call.job = .call name args ∧ call.before = i ∧
      call.closed = k := by
  rw [invoke, ← perform_discard] at h
  exact exists_invocation hi h

/-! ## Calls one after the other -/

/-- Calls are made one after the other, and each begins where the session was done with the last. -/
inductive Performs (fuel : Nat) : Interpreter Console → List Invocation → Interpreter Console → Prop
  /-- No call. -/
  | nil {i : Interpreter Console} : Performs fuel i [] i
  /-- A call, and others after it. -/
  | cons {call : Invocation} {later : List Invocation} {k : Interpreter Console}
      (hmade : call.Made fuel) (hlater : Performs fuel call.closed later k) :
      Performs fuel call.before (call :: later) k

/-- What the user is told before a line is read. -/
def prompt (exitCommand : String) : String :=
  "Enter a function to execute or enter '" ++ exitCommand ++ "': " ++ "\n"

/-- The user asks for calls, line by line, until the exit command or the end of the input. -/
inductive Converses (fuel : Nat) (exitCommand : String) :
    Interpreter Console → List Invocation → Interpreter Console → Prop
  /-- The input has ended. -/
  | ended {i : Interpreter Console} {console : Console}
      (hline : Console.readLine (i.host.printed (prompt exitCommand)) = (.ok none, console)) :
      Converses fuel exitCommand i [] { i with host := console }
  /-- The line is the exit command. -/
  | exit {i : Interpreter Console} {console : Console} {line : String}
      (hline : Console.readLine (i.host.printed (prompt exitCommand)) = (.ok (some line), console))
      (hread : CommandLine.read exitCommand line = .exit) :
      Converses fuel exitCommand i []
        { i with host := console.printed (Console.titleText "EXITING...") }
  /-- The line is empty, and the user is asked again. -/
  | empty {i k : Interpreter Console} {console : Console} {line : String}
      {calls : List Invocation}
      (hline : Console.readLine (i.host.printed (prompt exitCommand)) = (.ok (some line), console))
      (hread : CommandLine.read exitCommand line = .empty)
      (hlater : Converses fuel exitCommand { i with host := console } calls k) :
      Converses fuel exitCommand i calls k
  /-- The line names a function, which is called behind a blank line; then the user is asked
  again. -/
  | call {i k : Interpreter Console} {console : Console} {line name : String} {args : List Value}
      {call : Invocation} {later : List Invocation}
      (hline : Console.readLine (i.host.printed (prompt exitCommand)) = (.ok (some line), console))
      (hread : CommandLine.read exitCommand line = .call name args)
      (hjob : call.job = .call name args)
      (hbefore : call.before = { i with host := console.printed "\n" }) (hmade : call.Made fuel)
      (hlater : Converses fuel exitCommand call.closed later k) :
      Converses fuel exitCommand i (call :: later) k

/-! ## Sessions as sequences of calls -/

/-- Calls may be made in two goes. -/
lemma Performs.append {first second : List Invocation} {j : Interpreter Console}
    (hfirst : Performs fuel i first j) (hsecond : Performs fuel j second k) :
    Performs fuel i (first ++ second) k := by
  induction hfirst with
  | nil => exact hsecond
  | cons hmade _ ih => exact .cons hmade (ih hsecond)

/-- No report is left after some calls if none was left before them. -/
lemma Performs.errors_eq_nil {calls : List Invocation} (h : Performs fuel i calls k)
    (hi : i.errors = []) : k.errors = [] := by
  induction h with
  | nil => exact hi
  | cons _ _ ih => exact ih rfl

/-- The functions that were named in advance are called in order, whatever becomes of each call. -/
lemma exists_performs_of_forM {names : List String} (hi : i.errors = [])
    (h : (names.forM fun name => invoke fuel name []) i = (.ok (), k)) :
    ∃ calls, Performs fuel i calls k ∧
      calls.map Invocation.job = names.map fun name => .call name [] := by
  induction names generalizing i with
  | nil =>
    obtain ⟨-, rfl⟩ := Prod.mk.inj h
    exact ⟨[], .nil, rfl⟩
  | cons name names ih =>
    obtain ⟨_, mid, hfirst, hlater⟩ := exists_of_bind_ok h
    obtain ⟨call, hmade, hjob, rfl, rfl⟩ := exists_invocation_of_invoke hi hfirst
    obtain ⟨calls, hperforms, hjobs⟩ := ih rfl hlater
    exact ⟨call :: calls, .cons hmade hperforms, by rw [List.map_cons, hjob, hjobs, List.map_cons]⟩

/-- The calls that the user asks for. -/
lemma exists_converses_of_askWithin {exitCommand : String} {rounds : Nat} (hi : i.errors = [])
    (h : askWithin fuel exitCommand rounds i = (.ok (), k)) :
    ∃ calls, Converses fuel exitCommand i calls k := by
  induction rounds generalizing i with
  | zero => cases (Prod.mk.inj h).1
  | succ rounds ih =>
    obtain ⟨_, prompted, hprompt, h⟩ := exists_of_bind_ok h
    obtain ⟨line, taken, htaken, h⟩ := exists_of_bind_ok h
    obtain ⟨asked, hasked, rfl⟩ := exists_of_onConsole_ok hprompt
    obtain ⟨console, hline, rfl⟩ := exists_of_onConsole_ok htaken
    obtain rfl : asked = i.host.printed (prompt exitCommand) := Console.eq_printed_of_write hasked
    cases line with
    | none =>
      obtain ⟨-, rfl⟩ := Prod.mk.inj h
      exact ⟨[], .ended hline⟩
    | some line =>
      cases hread : CommandLine.read exitCommand line with
      | exit =>
        simp only [hread] at h
        obtain ⟨last, hlast, rfl⟩ := exists_of_onConsole_ok h
        rw [Console.eq_printed_of_title hlast]
        exact ⟨[], .exit hline hread⟩
      | empty =>
        simp only [hread] at h
        obtain ⟨calls, hcalls⟩ := ih (i := { i with host := console }) hi h
        exact ⟨calls, .empty hline hread hcalls⟩
      | call name args =>
        simp only [hread] at h
        obtain ⟨_, apart, hapart, h⟩ := exists_of_bind_ok h
        obtain ⟨_, next, hinvoke, hlater⟩ := exists_of_bind_ok h
        obtain ⟨blank, hblank, rfl⟩ := exists_of_onConsole_ok hapart
        obtain rfl : blank = console.printed "\n" := Console.eq_printed_of_write hblank
        obtain ⟨call, hmade, hjob, hbefore, rfl⟩ :=
          exists_invocation_of_invoke (i := { i with host := console.printed "\n" }) hi hinvoke
        obtain ⟨calls, hcalls⟩ := ih rfl hlater
        exact ⟨call :: calls, .call hline hread hjob hbefore hmade hcalls⟩

/-- A session that asks the user, and ends well, has written a title and then conversed. -/
lemma exists_converses_of_ask {exitCommand : String} (hi : i.errors = [])
    (h : ask fuel exitCommand i = (.ok (), k)) :
    ∃ calls, Converses fuel exitCommand
      { i with host := i.host.printed (Console.titleText "BEGINNING OF THE GAME") } calls k := by
  obtain ⟨_, titled, htitled, hrounds⟩ := exists_of_bind_ok h
  obtain ⟨console, htitle, rfl⟩ := exists_of_onConsole_ok htitled
  obtain rfl := Console.eq_printed_of_title htitle
  rw [get_bind_apply] at hrounds
  exact exists_converses_of_askWithin (by exact hi) hrounds

/-! ## Accounts -/

/-- What some calls reported, each report on a line. -/
def reportText (calls : List Invocation) : String :=
  String.join (calls.flatMap fun call => call.reported.map fun error => error.message ++ "\n")

/-- The books are in order: every call began clean, the last state is clean, and what was written to
the diagnostics meanwhile are the reports of the calls. -/
structure Accounts (i : Interpreter Console) (calls : List Invocation) (k : Interpreter Console) :
    Prop where
  /-- Every call began without reports and frames of others. -/
  starts : ∀ call ∈ calls, call.before.Clean
  /-- At the end there are none either. -/
  clean : k.Clean
  /-- The reports have been written. -/
  written : k.host.diagnostics.written =
    i.host.diagnostics.written ++ (reportText calls).toUTF8

/-- Without a call the books are in order if nothing was written. -/
lemma Accounts.nil (hk : k.Clean) (hwritten : k.host.diagnostics = i.host.diagnostics) :
    Accounts i [] k := by
  refine ⟨by simp, hk, ?_⟩
  rw [hwritten, reportText, List.flatMap_nil, String.join_nil, String.toUTF8_eq_toByteArray,
    String.toByteArray_empty, ByteArray.append_empty]

/-- A call that begins clean leaves the session clean, and its reports are written once. -/
lemma Accounts.cons {call : Invocation} {later : List Invocation} (hmade : call.Made fuel)
    (hbefore : call.before.Clean) (hdiagnostics : call.before.host.diagnostics = i.host.diagnostics)
    (hlater : call.closed.Clean → Accounts call.closed later k) : Accounts i (call :: later) k := by
  have hevolves := (call.job.runs fuel).evolves_any hmade.run
  have hclosed : call.closed.Clean := by
    refine ⟨rfl, ?_⟩
    show call.after.scopes.inner.size + 1 = 1
    rw [hevolves.balanced.1]
    exact hbefore.2
  have hreports : call.closed.host.diagnostics.written =
      i.host.diagnostics.written ++ (RuntimeError.reportText call.reported).toUTF8 := by
    rw [← hdiagnostics, ← hevolves.diagnostics_eq]
    rfl
  obtain ⟨hstarts, hk, hwritten⟩ := hlater hclosed
  refine ⟨List.forall_mem_cons.mpr ⟨hbefore, hstarts⟩, hk, ?_⟩
  have htext : reportText (call :: later) =
      RuntimeError.reportText call.reported ++ reportText later := by
    simp only [reportText, RuntimeError.reportText, List.flatMap_cons, String.join_append]
  rw [hwritten, hreports, ByteArray.append_assoc, htext, Console.toUTF8_append]

/-- **Calls made in advance keep the books in order.** -/
lemma Performs.accounts {calls : List Invocation} (h : Performs fuel i calls k) (hi : i.Clean) :
    Accounts i calls k := by
  induction h with
  | nil => exact .nil hi rfl
  | cons hmade _ ih => exact .cons hmade hi rfl ih

/-- Reading a line behind a prompt leaves the diagnostics as they are. -/
lemma diagnostics_of_prompted {console next : Console} {text : String} {line : Option String}
    (h : Console.readLine (console.printed text) = (.ok line, next)) :
    next.diagnostics = console.diagnostics := by
  have hread := Console.diagnostics_readLine (console.printed text)
  rw [h] at hread
  exact hread

/-- **Calls that the user asks for keep the books in order.** -/
lemma Converses.accounts {exitCommand : String} {calls : List Invocation}
    (h : Converses fuel exitCommand i calls k) (hi : i.Clean) : Accounts i calls k := by
  induction h with
  | ended hline => exact .nil hi (diagnostics_of_prompted hline)
  | exit hline _ =>
    have hsame := diagnostics_of_prompted hline
    exact .nil hi hsame
  | empty hline _ _ ih =>
    obtain ⟨hstarts, hk, hwritten⟩ := ih hi
    exact ⟨hstarts, hk, by rw [hwritten, diagnostics_of_prompted hline]⟩
  | call hline _ _ hbefore hmade _ ih =>
    have hsame := diagnostics_of_prompted hline
    exact .cons hmade (by rw [hbefore]; exact hi) (by rw [hbefore]; exact hsame) ih

/-- Books that are in order one after the other are in order as a whole. -/
lemma Accounts.append {first second : List Invocation} {j : Interpreter Console}
    (hfirst : Accounts i first j) (hsecond : Accounts j second k) :
    Accounts i (first ++ second) k := by
  refine ⟨fun call hcall => ?_, hsecond.clean, ?_⟩
  · rcases List.mem_append.mp hcall with hmem | hmem
    · exact hfirst.starts call hmem
    · exact hsecond.starts call hmem
  · have htext : reportText (first ++ second) = reportText first ++ reportText second := by
      simp only [reportText, List.flatMap_append, String.join_append]
    rw [hsecond.written, hfirst.written, ByteArray.append_assoc, htext, Console.toUTF8_append]

/-- The calls that a session makes before it asks the user. -/
lemma exists_performs_of_run {options : SessionOptions} {script : Script} (hi : i.errors = [])
    (h : run fuel options script i = (.ok (), k)) :
    ∃ calls j,
      Performs fuel
        { i with host := i.host.printed (Console.titleText "LAUNCHING THE INTERPRETER...") }
        calls j ∧
      calls.map Invocation.job = .block script.statements ::
        (options.entryFunction.toList ++ options.calls).map (fun name => .call name []) ∧
      (if options.interactive then ask fuel options.exitCommand else pure ()) j = (.ok (), k) := by
  obtain ⟨_, titled, htitled, hrest⟩ := exists_of_bind_ok h
  obtain ⟨_, started, hscript, hnames⟩ := exists_of_bind_ok hrest
  obtain ⟨_, entered, hentry, hothers⟩ := exists_of_bind_ok hnames
  obtain ⟨_, called, hcalls, hlast⟩ := exists_of_bind_ok hothers
  obtain ⟨console, htitle, rfl⟩ := exists_of_onConsole_ok htitled
  obtain rfl := Console.eq_printed_of_title htitle
  have hscript : perform ((Job.block script.statements).run fuel Scopes.rootId) _ =
    (.ok (), started) := hscript
  have hentry : (options.entryFunction.toList.forM fun name => invoke fuel name []) started =
      (.ok (), entered) := by
    cases hname : options.entryFunction with
    | none => rwa [hname] at hentry
    | some name =>
      rw [hname] at hentry
      exact bind_of_ok hentry
  obtain ⟨first, hmade, hjob, hbefore, rfl⟩ := exists_invocation (by exact hi) hscript
  obtain ⟨second, hsecond, hsecondJobs⟩ := exists_performs_of_forM rfl hentry
  obtain ⟨third, hthird, hthirdJobs⟩ := exists_performs_of_forM (hsecond.errors_eq_nil rfl) hcalls
  refine ⟨first :: (second ++ third), called, ?_, ?_, hlast⟩
  · rw [← hbefore]
    exact .cons hmade (hsecond.append hthird)
  · rw [List.map_cons, List.map_append, hjob, hsecondJobs, hthirdJobs, List.map_append]

end Session

/-- **A session reports every fault once and survives exits.** Let a session over a console with any
input and any limits, on a fresh interpreter with any limit and any variables, end well. Then it
made calls in this order: the script, the entry function, the functions named in advance, and those
that the user asked for, line by line. Each of them came to its end, and the session went on from
where it had dealt with it (`Invocation.closed`), also if the script asked to exit; by then it had
written the reports of the call, and a blank line and the words `Function ended` exactly if the
script asked to exit.

Every call began with no reports and no frame but the root, and so the session ended. What stands in
the diagnostics are the reports of all calls in their order, each on a line and each once.

**Proof sketch.** The steps of a session that ends well have all succeeded
(`Session.exists_performs_of_run`, `Session.exists_converses_of_askWithin`), and a call that begins
clean leaves the session clean and adds its reports (`Session.Accounts.cons`), since a run restores
the frames (`Evolves.balanced`) and does not write to the diagnostics (`Evolves.diagnostics_eq`). -/
theorem session_reports_each_once {fuel limit : Nat} {options : SessionOptions} {script : Script}
    {input : List UInt8} {outputLimit diagnosticsLimit : Option Nat}
    {globals : List (String × Value)} {k : Interpreter Console}
    (h : Session.run fuel options script
      (.fresh (.new input outputLimit diagnosticsLimit) limit globals) = (.ok (), k)) :
    ∃ (named asked : List Invocation) (j : Interpreter Console),
      Session.Performs fuel
          (.fresh ((Console.new input outputLimit diagnosticsLimit).printed
            (Console.titleText "LAUNCHING THE INTERPRETER...")) limit globals) named j ∧
        named.map Invocation.job = .block script.statements ::
          (options.entryFunction.toList ++ options.calls).map (fun name => .call name []) ∧
        (if options.interactive then
          Session.Converses fuel options.exitCommand
            { j with host := j.host.printed (Console.titleText "BEGINNING OF THE GAME") } asked k
        else asked = [] ∧ k = j) ∧
        (∀ call ∈ named ++ asked, call.before.errors = [] ∧ call.before.scopes.depth = 1) ∧
        k.errors = [] ∧ k.scopes.depth = 1 ∧
        k.host.diagnostics.written = (String.join ((named ++ asked).flatMap fun call =>
          call.reported.map fun error => error.message ++ "\n")).toUTF8 := by
  have hfresh : (Interpreter.fresh ((Console.new input outputLimit diagnosticsLimit).printed
      (Console.titleText "LAUNCHING THE INTERPRETER...")) limit globals).Clean := by
    refine ⟨rfl, ?_⟩
    rw [Scopes.depth, Interpreter.fresh, Interpreter.withGlobals, Scopes.inner_setGlobals]
    rfl
  obtain ⟨named, j, hnamed, hjobs, hlast⟩ := Session.exists_performs_of_run (by exact rfl) h
  have hnamedAccounts := Session.Performs.accounts (i := .fresh _ limit globals) hnamed hfresh
  obtain ⟨asked, hasked, haskedAccounts⟩ : ∃ asked, (if options.interactive then
      Session.Converses fuel options.exitCommand
        { j with host := j.host.printed (Console.titleText "BEGINNING OF THE GAME") } asked k
      else asked = [] ∧ k = j) ∧ Session.Accounts j asked k := by
    cases hinteractive : options.interactive with
    | true =>
      rw [hinteractive] at hlast
      obtain ⟨asked, hasked⟩ := Session.exists_converses_of_ask hnamedAccounts.clean.1 hlast
      obtain ⟨hstarts, hclean, hwritten⟩ := hasked.accounts hnamedAccounts.clean
      exact ⟨asked, hasked, hstarts, hclean, hwritten⟩
    | false =>
      rw [hinteractive] at hlast
      obtain ⟨-, rfl⟩ := Prod.mk.inj hlast
      exact ⟨[], ⟨rfl, rfl⟩, .nil hnamedAccounts.clean rfl⟩
  obtain ⟨hstarts, hclean, hwritten⟩ := hnamedAccounts.append haskedAccounts
  refine ⟨named, asked, j, hnamed, hjobs, hasked, hstarts, hclean.1, hclean.2, ?_⟩
  rw [hwritten]
  exact ByteArray.empty_append

/-- A script that calls an unknown function and declares another one that does so and then exits. -/
def leaving : Script :=
  ⟨"leaving", [.declare "leave" [] [.call "oops" [], .exitCode], .call "nothing" []], []⟩

/-- A user of that script, who asks for the function once more. -/
def leavingUser : Interpreter Console :=
  .fresh (.new (Console.typed ["leave", "exit"]) none none) 3 []

/-- A session of four calls, two of which exit: the script, the function `leave` and one that is
missing in advance, and `leave` again because the user asks for it. -/
theorem session_reports_each_once_leaving :
    ∃ (k : Interpreter Console) (calls : List Invocation),
      Session.run 4 ⟨"exit", some "leave", ["missing"], true⟩ leaving leavingUser = (.ok (), k) ∧
        k.host.diagnostics.written = ("Unknown function: nothing\nUnknown function: oops\n" ++
          "Unknown function: missing\nUnknown function: oops\n").toUTF8 ∧
        (∀ call ∈ calls, call.before.errors = [] ∧ call.before.scopes.depth = 1) ∧
        k.errors = [] ∧ k.scopes.depth = 1 ∧
        k.host.diagnostics.written = (String.join (calls.flatMap fun call =>
          call.reported.map fun error => error.message ++ "\n")).toUTF8 := by
  have hwell : (Session.run 4 ⟨"exit", some "leave", ["missing"], true⟩ leaving
      leavingUser).1.isOk = true := by
    decide +kernel
  have hwritten : (Session.run 4 ⟨"exit", some "leave", ["missing"], true⟩ leaving
      leavingUser).2.host.diagnostics.written =
      ("Unknown function: nothing\nUnknown function: oops\n" ++
        "Unknown function: missing\nUnknown function: oops\n").toUTF8 := by
    decide +kernel
  rcases hrun : Session.run 4 ⟨"exit", some "leave", ["missing"], true⟩ leaving leavingUser with
    ⟨stop | _, k⟩
  · rw [hrun] at hwell
    cases hwell
  · rw [hrun] at hwritten
    obtain ⟨named, asked, -, -, -, -, hstarts, herrors, hdepth, hreports⟩ :=
      session_reports_each_once hrun
    exact ⟨k, named ++ asked, rfl, hwritten, hstarts, herrors, hdepth, hreports⟩

end DialogueScript
