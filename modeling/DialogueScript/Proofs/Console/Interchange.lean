import DialogueScript.Console.Basic
import DialogueScript.Proofs.Interpreter.Hosts
import DialogueScript.Proofs.Token.Lines

set_option autoImplicit false

/-!
# Consoles and buffers

A console on which somebody types some answers, each on a line, is as good for a run as a buffer
that holds these answers. A buffer gives an answer as it is, a console gives the line without the
carriage returns at its end; but a script does not see the blanks around an answer. Where the
answers have run out, the one is empty and the other is at the end of its input.

What a run leaves on the output of the console is a transcript of its dealings with the buffer: a
line for each command and a prompt for each answer that it asked for.

## Main definitions

* `DialogueScript.Console.typed` — answers typed on a console.
* `DialogueScript.Event.printed`, `DialogueScript.transcript` — what dealings leave on the output.
* `DialogueScript.Console.Mirrors` — a console in the place of a buffer.

## Main results

* `DialogueScript.Console.takeSegment_typed` — the bytes of a line are found again.
* `DialogueScript.Console.answerText_typed` — a script gets the answer that was typed.
* `DialogueScript.Console.bisimulation_mirrors` — consoles and buffers give the same answers.
* `DialogueScript.console_interchangeable` — runs over both are alike.
-/

namespace DialogueScript

/-! ## Lines of input -/

namespace Console

/-- The input on which each answer has been typed on a line of its own. -/
def typed (answers : List String) : List UInt8 :=
  answers.flatMap fun answer => (answer ++ "\n").toUTF8.data.toList

/-- Only the line feed is encoded with the byte of the line feed: the bytes of all characters that
are encoded with several bytes are greater than those of the others. -/
lemma lineFeed_notMem_utf8EncodeChar {c : Char} (h : c ≠ '\n') :
    (10 : UInt8) ∉ String.utf8EncodeChar c := by
  have hc : c.val.toNat ≠ 10 := fun heq => h (Char.ext (UInt32.toNat_inj.mp heq))
  intro hmem
  simp only [String.utf8EncodeChar] at hmem
  split_ifs at hmem
  all_goals
    simp only [List.mem_cons, List.not_mem_nil, or_false, ← UInt8.toNat_inj, UInt8.toNat_ofNat',
      UInt8.reduceToNat] at hmem
    omega

/-- The byte of a line feed stands for nothing but a line feed. -/
lemma lineFeed_notMem_toUTF8 {text : String} (h : '\n' ∉ text.toList) :
    (10 : UInt8) ∉ text.toUTF8.data.toList := by
  rw [String.toUTF8_eq_toByteArray, ← String.utf8Encode_toList, List.utf8Encode,
    List.data_toByteArray, List.toList_toArray, List.mem_flatMap]
  rintro ⟨c, hc, hmem⟩
  exact lineFeed_notMem_utf8EncodeChar (fun heq => h (heq ▸ hc)) hmem

/-- A segment ends with the first line feed. -/
lemma takeSegment_append {bytes : List UInt8} (h : (10 : UInt8) ∉ bytes) (rest : List UInt8) :
    takeSegment (bytes ++ 10 :: rest) = (bytes ++ [10], rest) := by
  induction bytes with
  | nil => rfl
  | cons b bytes ih =>
    obtain ⟨hb, hbytes⟩ := List.ne_and_not_mem_of_not_mem_cons h
    simp only [List.cons_append, takeSegment, ih hbytes, if_neg hb.symm]

/-- A line is its text with the byte of a line feed behind it. -/
lemma toUTF8_line (answer : String) :
    (answer ++ "\n").toUTF8.data.toList = answer.toUTF8.data.toList ++ [10] := by
  simp only [String.toUTF8_eq_toByteArray, String.toByteArray_append, ByteArray.data_append,
    Array.toList_append]
  rfl

/-- The first answer that was typed stands in front, with a line feed behind it. -/
lemma typed_cons (answer : String) (later : List String) :
    typed (answer :: later) = answer.toUTF8.data.toList ++ 10 :: typed later := by
  rw [typed, List.flatMap_cons, toUTF8_line, List.append_assoc]
  rfl

/-- **The bytes of a line are found again**: an answer has no line feed in it, so that the segment
ends where the line ends. -/
lemma takeSegment_typed {answer : String} (h : '\n' ∉ answer.toList) (later : List String) :
    takeSegment (typed (answer :: later)) =
      ((answer ++ "\n").toUTF8.data.toList, typed later) := by
  rw [typed_cons, takeSegment_append (lineFeed_notMem_toUTF8 h), toUTF8_line]

/-- The bytes of a text are read as that text, without the end of its line. -/
lemma segmentText?_toUTF8 (text : String) :
    segmentText? text.toUTF8.data.toList = some (stripLineEnd text) := by
  have hread : String.fromUTF8? ⟨text.toUTF8.data.toList.toArray⟩ = some text := by
    rw [Array.toArray_toList, String.fromUTF8?, String.toUTF8_eq_toByteArray]
    exact dif_pos text.isValidUTF8
  rw [segmentText?, hread, Option.map_some]

/-- A text is its line with the characters behind it that end lines. -/
lemma exists_lineEnd (text : String) :
    ∃ ending : String, text = stripLineEnd text ++ ending ∧
      (∀ c ∈ ending.toList, c = '\r' ∨ c = '\n') ∧
      ∀ c ∈ (stripLineEnd text).toList.getLast?, c ≠ '\r' ∧ c ≠ '\n' := by
  let isEnd : Char → Bool := fun c => c == '\r' || c == '\n'
  refine ⟨String.ofList (text.toList.reverse.takeWhile isEnd).reverse, ?_, ?_, ?_⟩
  · apply String.toList_inj.mp
    rw [String.toList_append, stripLineEnd, String.toList_ofList, String.toList_ofList,
      ← List.reverse_append, List.takeWhile_append_dropWhile, List.reverse_reverse]
  · intro c hc
    rw [String.toList_ofList, List.mem_reverse] at hc
    simpa [isEnd] using List.mem_takeWhile_imp hc
  · intro c hc
    rw [stripLineEnd, String.toList_ofList, List.getLast?_reverse] at hc
    have hhead := List.head?_dropWhile_not isEnd text.toList.reverse
    rw [hc] at hhead
    simpa [isEnd] using hhead

/-- The characters at the end of a line are blanks. -/
lemma trim_stripLineEnd (line : String) :
    Text.trim (stripLineEnd line).toList = Text.trim line.toList := by
  obtain ⟨ending, hline, hending, -⟩ := exists_lineEnd line
  have hblank : ∀ c ∈ ending.toList, Text.isBlank c = true := by
    intro c hc
    rcases hending c hc with rfl | rfl
    · decide
    · decide
  nth_rewrite 2 [hline]
  rw [String.toList_append, Text.trim_append_right hblank]

/-! ## Dealings with a console -/

/-- The console with a text behind what has been written to its output. -/
def printed (console : Console) (text : String) : Console :=
  { console with
    output := { console.output with written := console.output.written ++ text.toUTF8 } }

/-- Where the output has no limit, all is written. -/
lemma write_apply {console : Console} (h : console.output.limit = none) (text : String) :
    write text console = (.ok (), console.printed text) := by
  obtain ⟨input, ⟨limit, written⟩, diagnostics, starved⟩ := console
  cases h
  rfl

/-- An answer is a line that is read behind the prompt. -/
lemma readAnswer_of_readLine {console next : Console} {line : Option String}
    (h : console.output.limit = none)
    (hline : readLine (console.printed answerPrompt) = (.ok line, next)) :
    Host.readAnswer console = (line, next) := by
  have hprompt : promptLine console = (.ok line, next) := by
    obtain ⟨input, ⟨limit, written⟩, diagnostics, starved⟩ := console
    cases h
    exact hline
  simp only [Host.readAnswer, hprompt]

/-- At the end of the input there is no line, and the console takes note of that. -/
lemma readLine_of_nil {console : Console} (h : console.input = []) :
    readLine console = (.ok none, console.starve) := by
  obtain ⟨input, output, diagnostics, starved⟩ := console
  cases h
  rfl

/-- Where there is input, the bytes up to the next line feed are read as a text. -/
lemma readLine_cons (b : UInt8) (bytes : List UInt8) (output diagnostics : Sink)
    (starved : Option (Nat × Nat)) :
    readLine ⟨b :: bytes, output, diagnostics, starved⟩ =
      (match segmentText? (takeSegment (b :: bytes)).1 with
        | some line => pure (some line)
        | none => throw .invalidText : ConsoleM (Option String))
          ⟨(takeSegment (b :: bytes)).2, output, diagnostics, starved⟩ := rfl

/-- A line is the text of the segment that is taken. -/
lemma readLine_of_takeSegment {console : Console} {segment rest : List UInt8} {line : String}
    (hne : console.input ≠ []) (hsegment : takeSegment console.input = (segment, rest))
    (hline : segmentText? segment = some line) :
    readLine console = (.ok (some line), { console with input := rest }) := by
  obtain ⟨_ | ⟨b, bytes⟩, output, diagnostics, starved⟩ := console
  · exact absurd rfl hne
  · rw [readLine_cons, hsegment, hline]
    rfl

/-- What is read is the first answer that was typed. -/
lemma readLine_typed {console : Console} {answer : String} {later : List String}
    (h : '\n' ∉ answer.toList) (hinput : console.input = typed (answer :: later)) :
    readLine console =
      (.ok (some (stripLineEnd (answer ++ "\n"))), { console with input := typed later }) := by
  refine readLine_of_takeSegment ?_ (hinput ▸ takeSegment_typed h later) (segmentText?_toUTF8 _)
  rw [hinput, typed_cons]
  simp

/-- **A script gets the answer that was typed.** The line has lost the carriage returns at its end,
which do not belong to the text of an answer. -/
lemma answerText_typed (answer : String) :
    answerText (some (stripLineEnd (answer ++ "\n"))) = answerText (some answer) := by
  have hblank : ∀ c ∈ "\n".toList, Text.isBlank c = true := List.all_eq_true.mp (by decide)
  simp only [answerText, Option.map_some, trim_stripLineEnd, String.toList_append]
  rw [Text.trim_append_right hblank]

end Console

/-! ## Transcripts -/

/-- What an event leaves on the output of a console. -/
def Event.printed : Event → String
  | .command shown => shown.shown ++ "\n"
  | .request => Console.answerPrompt

/-- What some events leave on the output of a console, one after the other. -/
def transcript (events : List Event) : String :=
  String.join (events.map Event.printed)

/-- One more event leaves its text behind the transcript. -/
lemma toUTF8_transcript_concat (events : List Event) (event : Event) :
    (transcript (events ++ [event])).toUTF8 =
      (transcript events).toUTF8 ++ event.printed.toUTF8 := by
  simp only [transcript, List.map_append, List.map_cons, List.map_nil, String.join_append,
    String.join_cons, String.join_nil, String.append_empty, String.toUTF8_eq_toByteArray,
    String.toByteArray_append]

/-! ## Consoles in the place of buffers -/

/-- The console stands where the buffer stands: its input is what is left of the answers, and its
output is a transcript of the dealings with the buffer. -/
structure Console.Mirrors (buffer : Recorded BufferHost) (console : Console) : Prop where
  /-- Each answer fits on a line. -/
  answers : ∀ answer ∈ buffer.host.answers, '\n' ∉ answer.toList
  /-- The commands on record are those that the buffer has kept. -/
  commands : buffer.host.commands = buffer.events.filterMap Event.command?
  /-- The answers have been typed. -/
  input : console.input = typed buffer.host.answers
  /-- All that is written fits. -/
  limit : console.output.limit = none
  /-- The transcript has been written. -/
  output : console.output.written = (transcript buffer.events).toUTF8

namespace Console.Mirrors

variable {buffer : Recorded BufferHost} {console : Console}

/-- A console on which the answers have been typed stands where a fresh buffer stands. -/
lemma start {answers : List String} (h : ∀ answer ∈ answers, '\n' ∉ answer.toList)
    (diagnosticsLimit : Option Nat) :
    Mirrors (.start (.withAnswers answers)) (.new (typed answers) none diagnosticsLimit) :=
  ⟨h, rfl, rfl, rfl, rfl⟩

/-- An event is printed, and the buffer puts it on record. -/
lemma print (h : Mirrors buffer console) (event : Event) :
    Mirrors ⟨⟨buffer.host.commands ++ event.command?.toList, buffer.host.answers⟩,
      buffer.events ++ [event]⟩ (console.printed event.printed) := by
  refine ⟨h.answers, ?_, h.input, h.limit, ?_⟩
  · simp only [h.commands, List.filterMap_append]
    cases event <;> rfl
  · rw [toUTF8_transcript_concat, ← h.output]
    rfl

/-- The console still stands where the buffer stands when both have shown a command. -/
lemma execute (h : Mirrors buffer console) (command : Command) :
    Mirrors (Host.execute command buffer) (Host.execute command console) := by
  have hconsole : Host.execute command console = console.printed (command.shown ++ "\n") :=
    congrArg Prod.snd (write_apply h.limit _)
  rw [hconsole]
  exact h.print (.command command)

/-- The console still stands where the buffer stands when it has taken note that the input has
ended. -/
lemma starve (h : Mirrors buffer console) : Mirrors buffer console.starve := by
  unfold Console.starve
  split
  · exact h
  · exact ⟨h.answers, h.commands, h.input, h.limit, h.output⟩

/-- An answer is asked for, whether there is one or not. -/
lemma readAnswer (h : Mirrors buffer console) :
    answerText (Host.readAnswer console).1 = answerText (Host.readAnswer buffer).1 ∧
      Mirrors (Host.readAnswer buffer).2 (Host.readAnswer console).2 := by
  obtain ⟨⟨commands, answers⟩, events⟩ := buffer
  have hprompt := h.print .request
  simp only [Event.command?, Option.toList_none, List.append_nil] at hprompt
  cases answers with
  | nil =>
    rw [readAnswer_of_readLine h.limit (readLine_of_nil hprompt.input)]
    exact ⟨rfl, hprompt.starve⟩
  | cons answer later =>
    have hanswer : '\n' ∉ answer.toList := h.answers answer List.mem_cons_self
    rw [readAnswer_of_readLine h.limit (readLine_typed hanswer hprompt.input)]
    exact ⟨answerText_typed answer,
      fun other hother => h.answers other (List.mem_cons_of_mem _ hother), hprompt.commands, rfl,
      hprompt.limit, hprompt.output⟩

end Console.Mirrors

/-- **Consoles and buffers give the same answers**, whatever they are asked. -/
lemma Console.bisimulation_mirrors : Host.Bisimulation Console.Mirrors where
  execute := fun h command => h.execute command
  answer := fun h => h.readAnswer.1
  next := fun h => h.readAnswer.2

/-- **A console is as good as a buffer.** Let somebody type answers without line feeds in them, each
on a line, on a console whose output takes all that is written, and let a buffer hold the same
answers. Make two interpreters fresh over the two, with the same limit and the same variables of the
whole program, and run any script in both and then make any calls.

The script and all of the calls come to an end with some outcomes over the buffer exactly if they do
so over the console; as this holds of every sequence of calls, it is the same call that never ends,
if there is one. At the end all outcomes, all variables and functions, and all reports in their
order are the same. Of the events of the run over the buffer, in their order, those that are
commands are the commands that the buffer has kept, and what the console has written is their
transcript: the line of each command, and the prompt for each answer that was asked for, whether
there was one or not.

**Proof sketch.** The record of its dealings does not change what a buffer does
(`Interpreter.completes_iff_recorded`), and a buffer with a record tells where the console stands
(`Console.bisimulation_mirrors`). Interpreters over related hosts complete the same
(`Interpreter.Completes.over`) in only one way (`Interpreter.Completes.unique`). -/
theorem console_interchangeable {answers : List String}
    (hanswers : ∀ answer ∈ answers, '\n' ∉ answer.toList) (diagnosticsLimit : Option Nat)
    (limit : Nat) (globals : List (String × Value)) (script : Script)
    (calls : List (String × List Value)) :
    let buffer := Interpreter.fresh (BufferHost.withAnswers answers) limit globals
    let recorded :=
      Interpreter.fresh (Recorded.start (BufferHost.withAnswers answers)) limit globals
    let console := Interpreter.fresh (Console.new (Console.typed answers) none diagnosticsLimit)
      limit globals
    (∀ first replies, (∃ j, buffer.Completes script calls first replies j) ↔
        ∃ j', console.Completes script calls first replies j') ∧
      ∀ first replies first' replies' j j', buffer.Completes script calls first replies j →
        console.Completes script calls first' replies' j' →
          first' = first ∧ replies' = replies ∧ j'.scopes = j.scopes ∧ j'.errors = j.errors ∧
            ∃ events, recorded.Completes script calls first replies
                { j with host := ⟨j.host, events⟩ } ∧
              j.host.commands = events.filterMap Event.command? ∧
              j'.host.output.written = (transcript events).toUTF8 := by
  intro buffer recorded console
  have hover : Interpreter.Over Console.Mirrors recorded console :=
    .fresh (.start hanswers diagnosticsLimit) limit globals
  refine ⟨fun first replies => ⟨?_, ?_⟩, ?_⟩
  · rintro ⟨j, hj⟩
    obtain ⟨events, hr⟩ := Interpreter.completes_iff_recorded.mp hj
    obtain ⟨j', hj', -⟩ := hr.over Console.bisimulation_mirrors hover
    exact ⟨j', hj'⟩
  · rintro ⟨j', hj'⟩
    obtain ⟨r, hr, -⟩ := hj'.over Console.bisimulation_mirrors.symm hover.symm
    exact ⟨{ r with host := r.host.host },
      Interpreter.completes_iff_recorded.mpr ⟨r.host.events, hr⟩⟩
  · intro first replies first' replies' j j' hj hj'
    obtain ⟨events, hr⟩ := Interpreter.completes_iff_recorded.mp hj
    obtain ⟨k', hk', hrk'⟩ := hr.over Console.bisimulation_mirrors hover
    -- The console can complete the same in one way only.
    obtain ⟨rfl, rfl, rfl⟩ := hk'.unique hj'
    exact ⟨rfl, rfl, hrk'.scopes, hrk'.errors, events, hr, hrk'.host.commands, hrk'.host.output⟩

/-- A script that greets and declares a function that asks for an answer. -/
def greeting : Script :=
  ⟨"greeting", [.call "message" [.string "Hello"],
    .declare "f" [] [.call "puppetclear" [], .ret (some (.call "puppetevent" []))]], []⟩

/-- Three answers are asked for. The first one stands between blanks, the second one is empty, and
there is no third one. -/
theorem console_interchangeable_greeting :
    let answers := [" 2\r", ""]
    let calls : List (String × List Value) := [("f", []), ("f", []), ("f", [])]
    let replies : List (Outcome Value) := [.done (.integer 2), .done .nil, .done .nil]
    (∀ answer ∈ answers, '\n' ∉ answer.toList) ∧
      ∃ (j : Interpreter BufferHost) (j' : Interpreter Console),
        (Interpreter.fresh (.withAnswers answers) 3 []).Completes greeting calls (.done ())
          replies j ∧
        (Interpreter.fresh (.new (Console.typed answers) none none) 3 []).Completes greeting calls
          (.done ()) replies j' ∧
        j'.errors = [.invalidAnswer "", .noAnswer] ∧
        j'.host.output.written = ("Level designer comment: 'Hello'.\n" ++
          "Hide answers to the character you are talking to.\nEnter the answer id: " ++
          "Hide answers to the character you are talking to.\nEnter the answer id: " ++
          "Hide answers to the character you are talking to.\nEnter the answer id: ").toUTF8 := by
  intro answers calls replies
  have hanswers : ∀ answer ∈ answers, '\n' ∉ answer.toList := by decide
  have hrecorded : ∃ r : Interpreter (Recorded BufferHost),
      (Interpreter.fresh (.start (.withAnswers answers)) 3 []).Completes greeting calls (.done ())
        replies r ∧ r.errors = [.invalidAnswer "", .noAnswer] ∧
      r.host.events = [.command (.designerComment "Hello"), .command .clearAnswers, .request,
        .command .clearAnswers, .request, .command .clearAnswers, .request] :=
    ⟨_, ⟨6, _, rfl, trivial, .cons (rfl : callFunction 6 _ _ _ _ = _) trivial
      (.cons (rfl : callFunction 6 _ _ _ _ = _) trivial
        (.cons (rfl : callFunction 6 _ _ _ _ = _) trivial .nil))⟩, rfl, rfl⟩
  obtain ⟨r, hr, hreports, hevents⟩ := hrecorded
  obtain ⟨hiff, hsame⟩ := console_interchangeable hanswers none 3 [] greeting calls
  have hj : (Interpreter.fresh (.withAnswers answers) 3 []).Completes greeting calls (.done ())
      replies { r with host := r.host.host } :=
    Interpreter.completes_iff_recorded.mpr ⟨r.host.events, hr⟩
  obtain ⟨j', hj'⟩ := (hiff _ _).mp ⟨_, hj⟩
  obtain ⟨-, -, -, herrors, events, hr', -, hwritten⟩ := hsame _ _ _ _ _ _ hj hj'
  obtain ⟨-, -, heq⟩ := hr.unique hr'
  have hlog : events = r.host.events := congrArg (fun k => k.host.events) heq
  refine ⟨hanswers, _, j', hj, hj', herrors.trans hreports, ?_⟩
  rw [hwritten, hlog, hevents]
  exact congrArg String.toUTF8 (by decide +kernel)

end DialogueScript
