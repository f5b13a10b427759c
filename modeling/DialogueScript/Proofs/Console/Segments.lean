import DialogueScript.Proofs.Console.Session

set_option autoImplicit false

/-!
# The input of a console, segment by segment

Both a session and the script that it runs ask the console for lines, and there is one input for
both. It falls into segments, each of which ends with a line feed, but for the last one, which may
lack it. Whoever asks for a line takes the next segment, whether it can be read or not, and at the
end of the input nothing.

Before a script asks for an answer a prompt is written. Where this fails no line is asked for.

## Main definitions

* `DialogueScript.Console.segments` — the segments of an input.
* `DialogueScript.Reader` — who asks for a line.
* `DialogueScript.Reader.Gets` — what a reader gets for a segment.

## Main results

* `DialogueScript.Console.segments_shape` — what segments look like.
* `DialogueScript.Reader.gets_read` — a reader takes the next segment.
* `DialogueScript.Reader.gets_in_turn` — any readers take the segments one by one.
-/

namespace DialogueScript

/-! ## Segments -/

namespace Console

/-- The input cut behind each line feed. -/
def segments : List UInt8 → List (List UInt8)
  | [] => []
  | b :: bytes =>
    if b = 10 then [b] :: segments bytes
    else
      match segments bytes with
      | [] => [[b]]
      | segment :: later => (b :: segment) :: later

/-- Put together, the segments are the input. -/
lemma flatten_segments (bytes : List UInt8) : (segments bytes).flatten = bytes := by
  fun_induction segments bytes with
  | case1 => rfl
  | case2 bytes ih => rw [List.flatten_cons, ih, List.singleton_append]
  | case3 b bytes _ hlast ih =>
    rw [hlast] at ih
    rw [← ih]
    rfl
  | case4 b bytes _ segment later hlater ih =>
    rw [hlater] at ih
    rw [← ih]
    rfl

/-- The first segment is what is taken when a line is asked for. -/
lemma segments_cons (b : UInt8) (bytes : List UInt8) :
    segments (b :: bytes) =
      (takeSegment (b :: bytes)).1 :: segments (takeSegment (b :: bytes)).2 := by
  induction bytes generalizing b with
  | nil =>
    rw [segments, takeSegment]
    split <;> rfl
  | cons next bytes ih =>
    rw [segments, takeSegment]
    split
    · rfl
    · rw [ih next]

/-- What is behind some of the segments falls into the others. -/
lemma segments_flatten_drop (bytes : List UInt8) (k : Nat) :
    segments ((segments bytes).drop k).flatten = (segments bytes).drop k := by
  induction k generalizing bytes with
  | zero => rw [List.drop_zero, flatten_segments]
  | succ k ih =>
    cases bytes with
    | nil => rfl
    | cons b bytes =>
      rw [segments_cons, List.drop_succ_cons]
      exact ih _

/-- **What segments look like**: put together they are the input, and each of them ends with its
only line feed, unless it is the last one and has none. -/
lemma segments_shape (bytes : List UInt8) {k : Nat} {segment : List UInt8}
    (h : (segments bytes)[k]? = some segment) :
    ∃ body, (10 : UInt8) ∉ body ∧ (segment = body ++ [10] ∨
      segment = body ∧ body ≠ [] ∧ k + 1 = (segments bytes).length) := by
  fun_induction segments bytes generalizing k segment with
  | case1 => cases h
  | case2 bytes ih =>
    cases k with
    | zero =>
      obtain rfl := Option.some.inj h
      exact ⟨[], by simp, .inl rfl⟩
    | succ k => simpa using ih h
  | case3 b bytes hb hlast ih =>
    cases k with
    | zero =>
      obtain rfl := Option.some.inj h
      exact ⟨[b], by simpa using Ne.symm hb, .inr ⟨rfl, by simp, rfl⟩⟩
    | succ k => cases h
  | case4 b bytes hb first later hlater ih =>
    -- The byte comes in front of the first segment; the others stay in their places.
    rw [hlater] at ih
    cases k with
    | zero =>
      obtain rfl := Option.some.inj h
      obtain ⟨body, hbody, hfirst⟩ := ih (k := 0) rfl
      refine ⟨b :: body, by simpa using ⟨Ne.symm hb, hbody⟩, ?_⟩
      rcases hfirst with rfl | ⟨rfl, -, hlength⟩
      · exact .inl rfl
      · exact .inr ⟨rfl, by simp, hlength⟩
    | succ k => simpa using ih (k := k + 1) h

/-! ## Texts of segments -/

/-- A segment that can be read is a text, and the line is that text without its end. -/
lemma eq_toUTF8_of_segmentText? {segment : List UInt8} {line : String}
    (h : segmentText? segment = some line) :
    ∃ text : String, segment = text.toUTF8.data.toList ∧ line = stripLineEnd text := by
  obtain ⟨text, htext, rfl⟩ := Option.map_eq_some_iff.mp h
  rw [String.fromUTF8?] at htext
  split at htext
  · obtain rfl := Option.some.inj htext
    exact ⟨_, rfl, rfl⟩
  · cases htext

/-- A write does not touch the input. -/
lemma input_write (text : String) (console : Console) :
    (write text console).2.input = console.input := by
  rw [write, get_bind_apply]
  rcases console.output.write text with ⟨_ | _, sink⟩ <;> rfl

end Console

/-! ## Readers -/

/-- Who asks for a line. -/
inductive Reader
  /-- The session, which asks for functions to call. -/
  | session
  /-- The script, which asks for an answer. -/
  | script
  deriving DecidableEq, Repr

namespace Reader

/-- What a reader gets, and the console behind it. To a script a fault is no answer. -/
def read : Reader → Console → Except ConsoleFault (Option String) × Console
  | session, console => Console.readLine console
  | script, console => (.ok (Host.readAnswer console).1, (Host.readAnswer console).2)

/-- Whatever is written before the line is asked for can be written. -/
def prompts : Reader → Console → Bool
  | session, _ => true
  | script, console => (Console.write Console.answerPrompt console).1.isOk

/-- What a reader gets for a segment of the input, or at the end of the input. -/
inductive Gets : Reader → Option (List UInt8) → Except ConsoleFault (Option String) → Prop
  /-- At the end of the input there is no line. -/
  | ended {reader : Reader} : Gets reader none (.ok none)
  /-- A segment that is a text is a line without the line feeds and carriage returns behind it. -/
  | line {reader : Reader} {line ending : String}
      (hending : ∀ c ∈ ending.toList, c = '\r' ∨ c = '\n')
      (hline : ∀ c ∈ line.toList.getLast?, c ≠ '\r' ∧ c ≠ '\n') :
      Gets reader (some (line ++ ending).toUTF8.data.toList) (.ok (some line))
  /-- A segment that is no text is a fault to a session. -/
  | fault {segment : List UInt8} (hsegment : ∀ text : String, text.toUTF8.data.toList ≠ segment) :
      Gets session (some segment) (.error .invalidText)
  /-- A segment that is no text is no answer to a script. -/
  | noAnswer {segment : List UInt8}
      (hsegment : ∀ text : String, text.toUTF8.data.toList ≠ segment) :
      Gets script (some segment) (.ok none)

/-- What a script gets instead of what a session gets. -/
def excuse : Except ConsoleFault (Option String) → Except ConsoleFault (Option String)
  | .ok line => .ok line
  | .error _ => .ok none

variable {console : Console}

/-- A script gets what a session gets, unless that is a fault. -/
lemma Gets.excuse {segment : Option (List UInt8)} {reply : Except ConsoleFault (Option String)}
    (h : Gets session segment reply) : Gets script segment (excuse reply) := by
  cases h with
  | ended => exact .ended
  | line hending hline => exact .line hending hline
  | fault hsegment => exact .noAnswer hsegment

/-- **A session takes the next segment.** -/
lemma gets_readLine (console : Console) :
    Gets session (Console.segments console.input).head? (Console.readLine console).1 ∧
      (Console.readLine console).2.input = (Console.segments console.input).tail.flatten := by
  obtain ⟨_ | ⟨b, bytes⟩, output, diagnostics, starved⟩ := console
  · rw [Console.readLine_of_nil rfl]
    refine ⟨.ended, ?_⟩
    cases starved <;> rfl
  · rw [Console.readLine_cons, Console.segments_cons, List.head?_cons, List.tail_cons,
      Console.flatten_segments]
    cases htext : Console.segmentText? (Console.takeSegment (b :: bytes)).1 with
    | none =>
      refine ⟨.fault fun text hbytes => ?_, rfl⟩
      rw [← hbytes, Console.segmentText?_toUTF8] at htext
      cases htext
    | some line =>
      refine ⟨?_, rfl⟩
      obtain ⟨text, hbytes, rfl⟩ := Console.eq_toUTF8_of_segmentText? htext
      obtain ⟨ending, htext, hending, hline⟩ := Console.exists_lineEnd text
      rw [hbytes]
      nth_rewrite 1 [htext]
      exact .line hending hline

/-- Behind its prompt a script reads as a session does. -/
lemma read_script_of_prompts (h : prompts script console = true) :
    read script console =
      (excuse (Console.readLine (console.printed Console.answerPrompt)).1,
        (Console.readLine (console.printed Console.answerPrompt)).2) := by
  rcases hwrite : Console.write Console.answerPrompt console with ⟨_ | _, written⟩
  · rw [prompts, hwrite] at h
    cases h
  · have hprompt : Console.promptLine console = Console.readLine written := bind_of_ok hwrite
    rw [← Console.eq_printed_of_write hwrite]
    simp only [read, Host.readAnswer, hprompt]
    rcases Console.readLine written with ⟨_ | _, next⟩ <;> rfl

/-- Where the prompt cannot be written nothing is taken. -/
lemma input_read_of_not_prompts {reader : Reader} (h : reader.prompts console = false) :
    (reader.read console).2.input = console.input := by
  cases reader with
  | session => cases h
  | script =>
    have hinput := Console.input_write Console.answerPrompt console
    rcases hwrite : Console.write Console.answerPrompt console with ⟨_ | _, written⟩
    · have hprompt : Console.promptLine console = (.error _, written) := bind_of_error hwrite
      rw [hwrite] at hinput
      simp only [read, Host.readAnswer, hprompt]
      exact hinput
    · rw [prompts, hwrite] at h
      cases h

/-- **A reader takes the next segment**, if its prompt can be written. -/
lemma gets_read {reader : Reader} (h : reader.prompts console = true) :
    reader.Gets (Console.segments console.input).head? (reader.read console).1 ∧
      (reader.read console).2.input = (Console.segments console.input).tail.flatten := by
  cases reader with
  | session => exact gets_readLine console
  | script =>
    obtain ⟨hgets, hinput⟩ := gets_readLine (console.printed Console.answerPrompt)
    rw [read_script_of_prompts h]
    exact ⟨hgets.excuse, hinput⟩

/-! ## Readers one after the other -/

/-- The console behind some readers. -/
def after (readers : List Reader) (console : Console) : Console :=
  readers.foldl (fun console reader => (reader.read console).2) console

/-- All prompts of some readers can be written. -/
def allPrompt : List Reader → Console → Bool
  | [], _ => true
  | reader :: later, console =>
    reader.prompts console && allPrompt later (reader.read console).2

/-- **Readers take the segments one by one.** Of any readers, in any order, the one in place `k`
gets the segment in place `k`, with nothing taken from what is behind it.

**Proof sketch.** By induction on the readers. The first one takes the first segment (`gets_read`),
and what is left falls into the other segments (`segments_flatten_drop`). -/
lemma gets_in_turn {readers : List Reader} {k : Nat} {reader : Reader}
    (h : allPrompt readers console = true) (hreader : readers[k]? = some reader) :
    reader.Gets (Console.segments console.input)[k]?
        (reader.read (after (readers.take k) console)).1 ∧
      (after (readers.take k) console).input =
        ((Console.segments console.input).drop k).flatten ∧
      (reader.read (after (readers.take k) console)).2.input =
        ((Console.segments console.input).drop (k + 1)).flatten := by
  induction readers generalizing console k with
  | nil => cases hreader
  | cons first later ih =>
    rw [allPrompt, Bool.and_eq_true] at h
    obtain ⟨hgets, hinput⟩ := gets_read h.1
    cases k with
    | zero =>
      obtain rfl := Option.some.inj hreader
      rw [List.drop_zero, Console.flatten_segments, List.drop_one, ← List.head?_eq_getElem?]
      exact ⟨hgets, rfl, hinput⟩
    | succ k =>
      -- The other readers find the other segments.
      obtain ⟨hgetsLater, hbefore, hafter⟩ := ih h.2 hreader
      have hleft : Console.segments (first.read console).2.input =
          (Console.segments console.input).drop 1 := by
        rw [hinput, ← List.drop_one, Console.segments_flatten_drop]
      rw [hleft, List.getElem?_drop, Nat.add_comm] at hgetsLater
      rw [hleft, List.drop_drop, Nat.add_comm] at hbefore hafter
      exact ⟨hgetsLater, hbefore, hafter⟩

end Reader

end DialogueScript
