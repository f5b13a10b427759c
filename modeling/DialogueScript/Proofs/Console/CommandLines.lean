import DialogueScript.Proofs.Interpreter.Integers

set_option autoImplicit false

/-!
# Calls as command lines

A call of a function can be typed: its name, and behind it the texts of its arguments, with blanks
in between. If the name and the texts are words, the line falls into exactly these words, whatever
the blanks are and however many there are of them; and a value is found again in its text if the
text is not also that of another value. So every such call is read back from its line. Only where
the whole line is the exit command the session ends instead.

## Main definitions

* `DialogueScript.Text.IsWord`, `DialogueScript.Text.IsGap` — words and what separates them.
* `DialogueScript.Value.IsTypable` — the values that a word of a command line can stand for.
* `DialogueScript.CommandLine.spelling` — a call, written with some blanks before each argument.

## Main results

* `DialogueScript.Text.words_spaced` — a text falls into the words of which it is made.
* `DialogueScript.argumentValue_shown` — a value is found again in its text.
* `DialogueScript.commandLine_carries_call` — calls are read back from their lines.
-/

namespace DialogueScript

/-! ## Words and gaps -/

namespace Text

/-- The text is a word: there is something in it, and nothing in it is a blank. -/
def IsWord (cs : List Char) : Prop :=
  cs ≠ [] ∧ ∀ c ∈ cs, isBlank c = false

/-- The text separates two words: there is something in it, and all of it is blank. -/
def IsGap (cs : List Char) : Prop :=
  cs ≠ [] ∧ ∀ c ∈ cs, isBlank c = true

/-- Words can be told from other texts. -/
instance (cs : List Char) : Decidable (IsWord cs) :=
  decidable_of_iff (cs ≠ [] ∧ cs.all (fun c => !isBlank c) = true) (by simp [IsWord])

/-- Gaps can be told from other texts. -/
instance (cs : List Char) : Decidable (IsGap cs) :=
  decidable_of_iff (cs ≠ [] ∧ cs.all isBlank = true) (by simp [IsGap])

/-- Words, each with a gap before it. -/
def spaced (pieces : List (List Char × List Char)) : List Char :=
  pieces.flatMap fun piece => piece.1 ++ piece.2

variable {word rest : List Char} {pieces : List (List Char × List Char)}

/-- Reading goes through a word to its end. -/
lemma wordsFrom_append (hword : ∀ c ∈ word, isBlank c = false) (run rest : List Char) :
    wordsFrom run (word ++ rest) = wordsFrom (word.reverse ++ run) rest := by
  induction word generalizing run with
  | nil => rfl
  | cons c word ih =>
    obtain ⟨hc, hword⟩ := List.forall_mem_cons.mp hword
    rw [List.cons_append, wordsFrom, hc, if_neg Bool.false_ne_true, ih hword,
      List.reverse_cons, List.append_assoc]
    rfl

/-- Blanks before a text change nothing. -/
lemma words_append_of_blank {blanks : List Char} (hblanks : ∀ c ∈ blanks, isBlank c = true)
    (rest : List Char) : words (blanks ++ rest) = words rest := by
  induction blanks with
  | nil => rfl
  | cons c blanks ih =>
    obtain ⟨hc, hblanks⟩ := List.forall_mem_cons.mp hblanks
    rw [List.cons_append, words, wordsFrom, hc, if_pos rfl]
    exact ih hblanks

/-- A word is found where a blank or nothing follows. -/
lemma words_append_of_isWord (hword : IsWord word) (hrest : ∀ c ∈ rest.head?, isBlank c = true) :
    words (word ++ rest) = word :: words rest := by
  have hclose : ∀ later, closeWord word.reverse later = word :: later := by
    intro later
    have hne : word.reverse.isEmpty = false := by simpa using hword.1
    rw [closeWord, hne, if_neg Bool.false_ne_true, List.reverse_reverse]
  rw [words, wordsFrom_append hword.2, List.append_nil]
  cases rest with
  | nil => exact hclose []
  | cons c rest =>
    have hc : isBlank c = true := hrest c rfl
    rw [wordsFrom, hc, if_pos rfl, hclose, words, wordsFrom, hc, if_pos rfl]
    rfl

/-- What begins with a gap begins with a blank. -/
lemma isBlank_head_spaced (hgaps : ∀ piece ∈ pieces, IsGap piece.1) :
    ∀ c ∈ (spaced pieces).head?, isBlank c = true := by
  cases pieces with
  | nil => nofun
  | cons piece pieces =>
    obtain ⟨hne, hblank⟩ := hgaps piece List.mem_cons_self
    obtain ⟨c, gap, hgap⟩ := List.exists_cons_of_ne_nil hne
    intro d hd
    simp only [spaced, List.flatMap_cons, hgap, List.cons_append, List.head?_cons,
      Option.mem_some_iff] at hd
    exact hd ▸ hblank c (by simp [hgap])

/-- **A text falls into the words of which it is made**, whatever the gaps between them. -/
lemma words_spaced (hgaps : ∀ piece ∈ pieces, IsGap piece.1)
    (hwords : ∀ piece ∈ pieces, IsWord piece.2) :
    words (spaced pieces) = pieces.map Prod.snd := by
  induction pieces with
  | nil => rfl
  | cons piece pieces ih =>
    obtain ⟨hgap, hgaps⟩ := List.forall_mem_cons.mp hgaps
    obtain ⟨hword, hwords⟩ := List.forall_mem_cons.mp hwords
    rw [spaced, List.flatMap_cons, List.append_assoc, words_append_of_blank hgap.2, ← spaced,
      words_append_of_isWord hword (isBlank_head_spaced hgaps), ih hgaps hwords, List.map_cons]

/-- A word with others behind it does not end with a blank. -/
lemma exists_last_of_isWord (hword : IsWord word) (hwords : ∀ piece ∈ pieces, IsWord piece.2) :
    ∃ c ∈ (word ++ spaced pieces).getLast?, isBlank c = false := by
  induction pieces generalizing word with
  | nil =>
    have hlast := List.getLast_mem hword.1
    refine ⟨word.getLast hword.1, ?_, hword.2 _ hlast⟩
    rw [spaced, List.flatMap_nil, List.append_nil, List.getLast?_eq_getLast_of_ne_nil hword.1]
    rfl
  | cons piece pieces ih =>
    obtain ⟨hnext, hwords⟩ := List.forall_mem_cons.mp hwords
    obtain ⟨c, hc, hblank⟩ := ih hnext hwords
    refine ⟨c, ?_, hblank⟩
    have hsplit : word ++ spaced (piece :: pieces) =
        (word ++ piece.1) ++ (piece.2 ++ spaced pieces) := by
      simp only [spaced, List.flatMap_cons, List.append_assoc]
    rw [hsplit, List.getLast?_append, Option.mem_def.mp hc]
    rfl

/-- A word with others behind it is not trimmed. -/
lemma trim_of_isWord (hword : IsWord word) (hwords : ∀ piece ∈ pieces, IsWord piece.2) :
    trim (word ++ spaced pieces) = word ++ spaced pieces := by
  refine trim_eq_self ?_ (exists_last_of_isWord hword hwords)
  obtain ⟨c, later, rfl⟩ := List.exists_cons_of_ne_nil hword.1
  exact ⟨c, rfl, hword.2 c List.mem_cons_self⟩

end Text

/-! ## Values as words -/

/-- The value can be typed: it is an integer, a Boolean, or a text that is a word and stands for
itself, being neither a numeral for an integer of 64 bits nor `true` or `false` in any case. -/
def Value.IsTypable : Value → Prop
  | .integer _ => True
  | .bool _ => True
  | .str text => Text.IsWord text.toList ∧ (∀ n : Int64, ¬Text.Denotes text.toList n.toInt) ∧
      Text.sameFolded text "true" = false ∧ Text.sameFolded text "false" = false
  | _ => False

/-- A text can be typed if it is a word that reads as nothing else. -/
lemma Value.isTypable_str_iff {text : String} :
    (Value.str text).IsTypable ↔ Text.IsWord text.toList ∧ Text.readInt64? text.toList = none ∧
      Text.sameFolded text "true" = false ∧ Text.sameFolded text "false" = false := by
  have hread : Text.readInt64? text.toList = none ↔
      ∀ n : Int64, ¬Text.Denotes text.toList n.toInt := by
    simp only [Option.eq_none_iff_forall_ne_some, ne_eq, Text.readInt64?_eq_some_iff]
  rw [hread]
  rfl

/-- The values that can be typed can be told from others. -/
instance : DecidablePred Value.IsTypable
  | .integer _ => .isTrue trivial
  | .bool _ => .isTrue trivial
  | .str _ => decidable_of_iff _ Value.isTypable_str_iff.symm
  | .float _ => .isFalse id
  | .nil => .isFalse id
  | .noValue => .isFalse id

/-- No character of a numeral is a blank. -/
lemma Text.Denotes.isWord {cs : List Char} {z : Int} (h : Denotes cs z) : IsWord cs := by
  have hdigit : ∀ c : Char, c.isDigit = true → isBlank c = false :=
    fun c hc => (not_blank_of_isDigit hc).1
  cases h with
  | unsigned hne hdigits => exact ⟨hne, fun c hc => hdigit c (hdigits c hc)⟩
  | plus _ hdigits =>
    exact ⟨List.cons_ne_nil _ _,
      List.forall_mem_cons.mpr ⟨by decide, fun c hc => hdigit c (hdigits c hc)⟩⟩
  | minus _ hdigits =>
    exact ⟨List.cons_ne_nil _ _,
      List.forall_mem_cons.mpr ⟨by decide, fun c hc => hdigit c (hdigits c hc)⟩⟩

variable {value : Value}

/-- The text of a printed integer is a numeral for it. -/
lemma Value.denotes_shown_integer (n : Int64) :
    Text.Denotes (Value.integer n).shown.toList n.toInt := by
  rw [Value.shown, String.toList_ofList]
  exact Text.denotes_showInt n.toInt

/-- The text of a value that can be typed is a word. -/
lemma Value.IsTypable.isWord_shown (h : value.IsTypable) : Text.IsWord value.shown.toList := by
  cases value with
  | integer n => exact (Value.denotes_shown_integer n).isWord
  | bool b => cases b <;> decide
  | str text => exact h.1
  | float _ => exact h.elim
  | nil => exact h.elim
  | noValue => exact h.elim

/-- **A value is found again in its text**, if it can be typed. -/
lemma argumentValue_shown (h : value.IsTypable) : argumentValue value.shown = value := by
  cases value with
  | integer n => exact argumentValue_eq_integer_iff.mpr (Value.denotes_shown_integer n)
  | bool b => cases b <;> rfl
  | str text =>
    obtain ⟨-, hread, htrue, hfalse⟩ := Value.isTypable_str_iff.mp h
    simp only [Value.shown, argumentValue, hread, htrue, hfalse, Bool.false_eq_true, if_false]
  | float _ => exact h.elim
  | nil => exact h.elim
  | noValue => exact h.elim

/-! ## Lines -/

namespace CommandLine

/-- A call as it is typed: the name, and for each argument what stands before it and its text. -/
def spelling (name : String) (args : List (String × Value)) : String :=
  name ++ String.join (args.map fun arg => arg.1 ++ arg.2.shown)

/-- The words behind the name, with what stands before each of them. -/
def pieces (args : List (String × Value)) : List (List Char × List Char) :=
  args.map fun arg => (arg.1.toList, arg.2.shown.toList)

/-- The characters of a call as it is typed: those of its name, and then its arguments with their
gaps. -/
lemma toList_spelling (name : String) (args : List (String × Value)) :
    (spelling name args).toList = name.toList ++ Text.spaced (pieces args) := by
  have hjoin : (String.join (args.map fun arg => arg.1 ++ arg.2.shown)).toList =
      Text.spaced (pieces args) := by
    induction args with
    | nil => rfl
    | cons arg args ih =>
      rw [List.map_cons, String.join_cons, String.toList_append, String.toList_append, ih]
      rfl
  rw [spelling, String.toList_append, hjoin]

variable {name : String} {args : List (String × Value)}

/-- **A spelled call falls into its name and the texts of its arguments.** -/
lemma words_spelling (hname : Text.IsWord name.toList)
    (hgaps : ∀ arg ∈ args, Text.IsGap arg.1.toList) (hvalues : ∀ arg ∈ args, arg.2.IsTypable) :
    Text.words (spelling name args).toList =
      name.toList :: args.map fun arg => arg.2.shown.toList := by
  have hgaps : ∀ piece ∈ pieces args, Text.IsGap piece.1 := List.forall_mem_map.mpr hgaps
  have hwords : ∀ piece ∈ pieces args, Text.IsWord piece.2 :=
    List.forall_mem_map.mpr fun arg harg => (hvalues arg harg).isWord_shown
  rw [toList_spelling, Text.words_append_of_isWord hname (Text.isBlank_head_spaced hgaps),
    Text.words_spaced hgaps hwords, pieces, List.map_map]
  rfl

/-- Blanks around a spelled call are cut off, and nothing else. -/
lemma trim_spelling {before behind : String} (hname : Text.IsWord name.toList)
    (hbefore : ∀ c ∈ before.toList, Text.isBlank c = true)
    (hbehind : ∀ c ∈ behind.toList, Text.isBlank c = true)
    (hvalues : ∀ arg ∈ args, arg.2.IsTypable) :
    Text.trim (before ++ spelling name args ++ behind).toList = (spelling name args).toList := by
  have hwords : ∀ piece ∈ pieces args, Text.IsWord piece.2 :=
    List.forall_mem_map.mpr fun arg harg => (hvalues arg harg).isWord_shown
  rw [String.toList_append, String.toList_append, Text.trim_append_right hbehind,
    Text.trim_append_left hbefore, toList_spelling, Text.trim_of_isWord hname hwords]

/-- The texts of values that can be typed are read as these values. -/
lemma map_argumentValue_shown (hvalues : ∀ arg ∈ args, arg.2.IsTypable) :
    (args.map fun arg => arg.2.shown.toList).map
      (fun word => argumentValue (String.ofList word)) = args.map Prod.snd := by
  rw [List.map_map]
  refine List.map_congr_left fun arg harg => ?_
  rw [Function.comp_apply, String.ofList_toList, argumentValue_shown (hvalues arg harg)]

end CommandLine

/-- **A command line carries any call.** Take a name that is a word, arguments each of which is an
integer, a Boolean, or a text that is a word and neither a numeral for an integer of 64 bits nor
`true` or `false` in any case, a gap of any blanks before each argument, and any blanks, or none,
before and behind the whole. Without the blanks around it the line is the call as it is spelled. It
is read as the call of this name with exactly these arguments in their order, unless it is the exit
command, up to blanks around it and the case of its letters: then it is read as that.

**Proof sketch.** The line falls into the words of which it is made (`CommandLine.words_spelling`),
and each argument is found again in its text (`argumentValue_shown`): a numeral is tried first, then
the Booleans, and a text that can be typed is none of them. -/
theorem commandLine_carries_call (exitCommand : String) {name before behind : String}
    {args : List (String × Value)} (hname : Text.IsWord name.toList)
    (hbefore : ∀ c ∈ before.toList, Text.isBlank c = true)
    (hbehind : ∀ c ∈ behind.toList, Text.isBlank c = true)
    (hgaps : ∀ arg ∈ args, Text.IsGap arg.1.toList) (hvalues : ∀ arg ∈ args, arg.2.IsTypable) :
    let line := before ++ CommandLine.spelling name args ++ behind
    Text.trim line.toList = (CommandLine.spelling name args).toList ∧
      CommandLine.read exitCommand line =
        if Text.foldCase (Text.trim line.toList) = Text.foldCase (Text.trim exitCommand.toList) then
          .exit
        else .call name (args.map Prod.snd) := by
  intro line
  have htrim : Text.trim line.toList = (CommandLine.spelling name args).toList :=
    CommandLine.trim_spelling hname hbefore hbehind hvalues
  refine ⟨htrim, ?_⟩
  rw [CommandLine.read, htrim, CommandLine.words_spelling hname hgaps hvalues]
  simp only [String.ofList_toList, CommandLine.map_argumentValue_shown hvalues]

/-- The least integer, a Boolean, the integer behind the greatest one, which is a text, and the exit
command, which as an argument is no more than a text, with blanks of several sorts in between. The
same line is read as the exit command where that is a call. -/
theorem commandLine_carries_call_greeting :
    let args : List (String × Value) := [("\u3000\t", .integer Int64.minValue), (" ", .bool false),
      ("\u00a0", .str "9223372036854775808"), ("\u2003 \u2003", .str "exit")]
    let line := "\u2028" ++ CommandLine.spelling "Greet" args ++ " \r"
    let exitCommand := " GREET\u3000\t-9223372036854775808 FALSE\u00a0" ++
      "9223372036854775808\u2003 \u2003EXIT"
    CommandLine.read "exit" line = .call "Greet" [.integer Int64.minValue, .bool false,
        .str "9223372036854775808", .str "exit"] ∧
      CommandLine.read exitCommand line = .exit := by
  intro args line exitCommand
  have hname : Text.IsWord "Greet".toList := by decide
  have hbefore : ∀ c ∈ "\u2028".toList, Text.isBlank c = true :=
    List.all_eq_true.mp (by decide)
  have hbehind : ∀ c ∈ " \r".toList, Text.isBlank c = true := List.all_eq_true.mp (by decide)
  have hgaps : ∀ arg ∈ args, Text.IsGap arg.1.toList := by decide
  have hvalues : ∀ arg ∈ args, arg.2.IsTypable := by decide
  have hread : ∀ command, _ := fun command =>
    (commandLine_carries_call command hname hbefore hbehind hgaps hvalues).2
  exact ⟨(hread _).trans (if_neg (by decide)), (hread _).trans (if_pos (by decide))⟩

end DialogueScript
