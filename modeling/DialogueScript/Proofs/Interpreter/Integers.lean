import DialogueScript.Console.CommandLine
import DialogueScript.Proofs.Interpreter.Simulation
import DialogueScript.Proofs.Printing.RoundTrip
import DialogueScript.Proofs.Text.Numerals
import DialogueScript.Proofs.Token.Lines

set_option autoImplicit false

/-!
# Readers of integers

Integers are read in three places: a word of a command line, an answer to a question of a script,
and a number literal. They differ in what they do with blanks, in what else a text may be, and in
what they do with a text that is no integer. On integers they agree: each reads what the numeral
denotes, over the whole range of 64 bits, and what is printed for an integer is read back.

A literal has no sign. It goes the long way, through the tokens of a source and the run of an
assignment.

## Main definitions

* `DialogueScript.AnswerGives` — what comes of a question to the host.
* `DialogueScript.LiteralGives` — what comes of assigning a literal in a fresh interpreter.

## Main results

* `DialogueScript.argumentValue_eq_integer_iff`, `DialogueScript.answerGives_of_some`,
  `DialogueScript.literalGives_of_lt`, `DialogueScript.literalGives_of_ge` — the three readers.
* `DialogueScript.Script.load_line` — a source of a single line.
* `DialogueScript.integers_read_as_denoted` — the three readers and the printer.
-/

namespace DialogueScript

open Eval Grammar

variable {σ : Type}

/-! ## Words of a command line -/

/-- **A word is an integer** exactly if it is a numeral for it. -/
lemma argumentValue_eq_integer_iff {word : String} {n : Int64} :
    argumentValue word = .integer n ↔ Text.Denotes word.toList n.toInt := by
  rw [← Text.readInt64?_eq_some_iff, argumentValue]
  split
  · next m hread => rw [hread, Value.integer.injEq, Option.some.injEq]
  · next hread =>
    rw [hread]
    refine iff_of_false ?_ nofun
    split
    · nofun
    · split <;> nofun

/-- A word that is not read as an integer is a Boolean or a text. -/
lemma argumentValue_of_none {word : String} (h : Text.readInt64? word.toList = none) :
    (∃ b, argumentValue word = .bool b) ∨ argumentValue word = .str word := by
  rw [argumentValue, h]
  dsimp only
  split
  · exact .inl ⟨true, rfl⟩
  · split
    · exact .inl ⟨false, rfl⟩
    · exact .inr rfl

/-! ## Answers -/

section

variable [Host σ] {i : Interpreter σ} {line : String} {host : σ}

/-- Asking for an answer returns the value, adds the reports, and leaves the host in the state. -/
def AnswerGives (i : Interpreter σ) (host : σ) (value : Value) (errors : List RuntimeError) :
    Prop :=
  ∀ args, Builtin.puppetEvent.run args i =
    (.done value, { i with host := host, errors := i.errors ++ errors })

/-- The value of an answer is that of its text. -/
lemma run_puppetEvent (hanswer : Host.readAnswer i.host = (some line, host)) (args : List Value) :
    Builtin.puppetEvent.run args i =
      answerValue (some (Text.trim line.toList)) { i with host := host } := by
  have hask : Builtin.puppetEvent.run args i = Builtin.askAnswer i := rfl
  rw [hask, askAnswer_apply, hanswer]
  rfl

/-- **An answer that is read** is returned, and nothing is reported. -/
lemma answerGives_of_some {n : Int64} (hanswer : Host.readAnswer i.host = (some line, host))
    (hread : Text.readInt64? (Text.trim line.toList) = some n) :
    AnswerGives i host (.integer n) [] := by
  intro args
  rw [run_puppetEvent hanswer, answerValue, hread, List.append_nil]
  rfl

/-- **An answer that is not read** is reported once and counts as `nil`. -/
lemma answerGives_of_none (hanswer : Host.readAnswer i.host = (some line, host))
    (hread : Text.readInt64? (Text.trim line.toList) = none) :
    AnswerGives i host .nil [.invalidAnswer (String.ofList (Text.trim line.toList))] := by
  intro args
  rw [run_puppetEvent hanswer, answerValue, hread]
  rfl

/-- An answer is returned as an integer exactly if its text is a numeral for it. -/
lemma answerGives_integer_iff {n : Int64} (hanswer : Host.readAnswer i.host = (some line, host)) :
    AnswerGives i host (.integer n) [] ↔ Text.Denotes (Text.trim line.toList) n.toInt := by
  rw [← Text.readInt64?_eq_some_iff]
  refine ⟨fun hgives => ?_, answerGives_of_some hanswer⟩
  have hgiven := hgives []
  cases hread : Text.readInt64? (Text.trim line.toList) with
  | none =>
    rw [answerGives_of_none hanswer hread] at hgiven
    cases hgiven
  | some m =>
    rw [answerGives_of_some hanswer hread] at hgiven
    cases hgiven
    rfl

end

/-! ## Literals -/

/-- **A source of a single line**: a printed statement is loaded back from its line also without a
line feed behind it. -/
lemma Script.load_line (id : String) {s : Stmt} {line : Line} (hline : s.lines = [line])
    (hprintable : s.isPrintable = true) (hnesting : Stmt.listNesting [s] ≤ Parser.nestingLimit) :
    Script.load id (String.ofList line.source) = ⟨id, [s], []⟩ := by
  have hlines : Stmt.listLines [s] = [line] := by rw [Stmt.listLines, hline]; rfl
  have hlist : Stmt.listIsPrintable [s] = true := by
    rw [Stmt.listIsPrintable, hprintable]
    rfl
  have hall := List.all_eq_true.mp (Stmt.all_listLines_isPrintable [s] hlist)
  have hblock := block_listTokens [s] hlist 1 [] (by simp [Follows])
  rw [hlines] at hall hblock
  have hspells := Line.spells (hall line List.mem_cons_self)
  have hne : line.source ≠ [] := by
    intro hnil
    obtain ⟨c, hc, -⟩ := hspells.head
    simp [hnil] at hc
  have hlexed : Lexed.ofSource (String.ofList line.source) =
      ⟨Line.listTokens 1 [line] ++ [Token.endOfInput 2], []⟩ := by
    rw [Lexed.ofSource, String.toList_ofList, Text.lines_of_not_mem hspells.noLineEnd hne]
    exact Lexed.ofLines_sources hall 1
  have hparse : parseTokens (Lexed.ofSource (String.ofList line.source)).tokens = ([s], []) := by
    rw [parseTokens_eq_iff, hlexed, Token.beforeEnd_listTokens]
    rw [List.append_nil] at hblock
    exact ⟨hblock, hnesting⟩
  simp only [Script.load, hparse]
  rw [hlexed]
  rfl

/-- Running `x = ` and a text in a fresh interpreter binds `x` to the value and makes the reports.
Loading this source reports nothing. -/
def LiteralGives [Host σ] (host : σ) (text : String) (value : Value)
    (errors : List RuntimeError) : Prop :=
  ∀ id, (Script.load id ("x = " ++ text)).errors = [] ∧
    ∃ enough i, (∀ fuel, enough ≤ fuel →
      runScript fuel (Script.load id ("x = " ++ text)) (Interpreter.new host) = (.done (), i)) ∧
        i.scopes.global? "x" = some value ∧ i.errors = errors

section

variable {digits : List Char}

/-- Digits behind `x = ` are loaded as an assignment of a number. -/
lemma Script.load_digits (id : String) (hne : digits ≠ [])
    (hdigits : ∀ c ∈ digits, c.isDigit = true) :
    Script.load id ("x = " ++ String.ofList digits) =
      ⟨id, [.assign "x" (.number (String.ofList digits))], []⟩ := by
  have hline : (Line.assign "x" (.number (String.ofList digits))).source =
      "x = ".toList ++ (String.ofList digits).toList := rfl
  have hsource : "x = " ++ String.ofList digits =
      String.ofList (Line.assign "x" (.number (String.ofList digits))).source := by
    rw [hline, String.ofList_append, String.ofList_toList, String.ofList_toList]
  have hprintable : (Stmt.assign "x" (.number (String.ofList digits))).isPrintable = true := by
    have hname : Text.isName "x" = true := by decide
    simpa [Stmt.isPrintable, hname, Expr.number, Expr.isPrintable, LiteralKind.isSpelling, hne]
      using hdigits
  rw [hsource]
  exact Script.load_line id rfl hprintable (Nat.zero_le _)

/-- Digits have no point in them, so that they are read as an integer. -/
lemma numberValue?_of_digits (hdigits : ∀ c ∈ digits, c.isDigit = true) :
    numberValue? (String.ofList digits) = (Text.readInt64? digits).map .integer := by
  have hpoint : ¬digits.contains '.' = true := by
    intro hmem
    have hdigit := hdigits '.' (by simpa using hmem)
    cases hdigit
  rw [numberValue?, String.toList_ofList, if_neg hpoint]

/-- What is assigned to a variable in the root of a fresh interpreter is bound there. -/
lemma global?_assign_empty (name : String) (value : Value) :
    (Scopes.empty.assign Scopes.rootId name value).global? name = some value := by
  have hassign : Scopes.empty.assign Scopes.rootId name value =
      Scopes.empty.define Scopes.rootId name value := by
    rw [Scopes.assign]
    split <;> rfl
  rw [hassign]
  exact Std.TreeMap.getElem?_insert_self

variable [Host σ]

/-- Assigning a literal binds the variable to its value and makes the reports of reading it. -/
lemma literalGives_of_literalValue {value : Value} {errors : List RuntimeError} (host : σ)
    (hne : digits ≠ []) (hdigits : ∀ c ∈ digits, c.isDigit = true)
    (hvalue : literalValue .number (String.ofList digits) (Interpreter.new host) =
      (.done value, { Interpreter.new host with errors := errors })) :
    LiteralGives host (String.ofList digits) value errors := by
  intro id
  rw [Script.load_digits id hne hdigits]
  let final : Interpreter σ :=
    { Interpreter.new host with
      scopes := Scopes.empty.assign Scopes.rootId "x" value
      errors := errors }
  refine ⟨rfl, 2, final, fun fuel hfuel => ?_, global?_assign_empty "x" value, rfl⟩
  -- One unit of fuel is for the statement, and one for its expression.
  obtain ⟨more, rfl⟩ : ∃ more, fuel = more + 2 := ⟨fuel - 2, by omega⟩
  have hassign : execute (more + 2) Scopes.rootId (.assign "x" (.number (String.ofList digits)))
      (Interpreter.new host) = (.done .normal, final) := by
    have heval : evaluate (more + 1) Scopes.rootId (.number (String.ofList digits))
        (Interpreter.new host) = _ := hvalue
    rw [execute, bind_of_done heval]
    rfl
  have hall : runStatements (more + 2) Scopes.rootId
      [.assign "x" (.number (String.ofList digits))] (Interpreter.new host) =
        (.done .normal, final) := by
    rw [runStatements, runAll, bind_of_done hassign]
    rfl
  rw [runScript, bind_of_done hall]
  rfl

/-- **A literal that is read** is assigned, and nothing is reported. -/
lemma literalGives_of_some {n : Int64} (host : σ) (hne : digits ≠ [])
    (hdigits : ∀ c ∈ digits, c.isDigit = true) (hread : Text.readInt64? digits = some n) :
    LiteralGives host (String.ofList digits) (.integer n) [] := by
  refine literalGives_of_literalValue host hne hdigits ?_
  rw [literalValue, numberValue?_of_digits hdigits, hread]
  rfl

/-- **A literal that is not read** is reported once, and `nil` is assigned. -/
lemma literalGives_of_none (host : σ) (hne : digits ≠ [])
    (hdigits : ∀ c ∈ digits, c.isDigit = true) (hread : Text.readInt64? digits = none) :
    LiteralGives host (String.ofList digits) .nil [.invalidNumber (String.ofList digits)] := by
  refine literalGives_of_literalValue host hne hdigits ?_
  rw [literalValue, numberValue?_of_digits hdigits, hread]
  rfl

/-- **A literal in range** is assigned as the number that its digits denote. -/
lemma literalGives_of_lt (host : σ) (hne : digits ≠ [])
    (hdigits : ∀ c ∈ digits, c.isDigit = true) (hrange : Text.placeValue digits < 2 ^ 63) :
    LiteralGives host (String.ofList digits) (.integer (.ofInt (Text.placeValue digits))) [] := by
  refine literalGives_of_some host hne hdigits (Text.readInt64?_eq_some_iff.mpr ?_)
  rw [Int64.toInt_ofInt_of_le (by omega) (by omega)]
  exact .unsigned hne hdigits

/-- **A literal out of range** is reported once, and `nil` is assigned. -/
lemma literalGives_of_ge (host : σ) (hne : digits ≠ [])
    (hdigits : ∀ c ∈ digits, c.isDigit = true) (hrange : 2 ^ 63 ≤ Text.placeValue digits) :
    LiteralGives host (String.ofList digits) .nil [.invalidNumber (String.ofList digits)] := by
  refine literalGives_of_none host hne hdigits (Text.readInt64?_eq_none_iff.mpr ?_)
  intro z hz
  rw [hz.unique (.unsigned hne hdigits)]
  exact .inr (by omega)

/-- **A printed integer is read back** by a literal unless it has a sign. -/
lemma literalGives_shown (host : σ) {n : Int64} (hsign : 0 ≤ n) :
    LiteralGives host (Value.integer n).shown (.integer n) [] := by
  have hnonneg : ¬n.toInt < 0 := by
    have := Int64.le_iff_toInt_le.mp hsign
    simpa using this
  have hshown : Text.showInt n.toInt = Text.showNat n.toInt.natAbs := if_neg hnonneg
  have hread := Text.readInt64?_eq_some_iff.mpr (Text.denotes_showInt n.toInt)
  rw [Value.shown]
  rw [hshown] at hread ⊢
  exact literalGives_of_some host (Text.showNat_ne_nil _) (fun _ => Text.isDigit_of_mem_showNat)
    hread

end

/-! ## The three readers together -/

/-- **Integers are read as they are denoted**, over the whole range of 64 bits:
1. a word of a command line is an integer exactly if it is a numeral for it, and if it is a numeral
   for no integer in range, it is a Boolean or a text;
2. so is an answer without the blanks around it, without a report; if it is a numeral for no
   integer in range, it counts as `nil` and is reported once;
3. digits behind `x = ` bind the variable to the number they denote if it is in range, without a
   report; out of range they bind it to `nil` and are reported once;
4. what is printed for an integer is read back by all three, a literal having no sign.

**Proof sketch.** All three readers go through `Text.readInt64?`, and that gives what the numeral
denotes by its places. A printed integer is a numeral for itself. -/
theorem integers_read_as_denoted [Host σ] :
    (∀ word : String,
      (∀ n : Int64, argumentValue word = .integer n ↔ Text.Denotes word.toList n.toInt) ∧
        ((∀ z, Text.Denotes word.toList z → z < -2 ^ 63 ∨ 2 ^ 63 ≤ z) →
          (∃ b, argumentValue word = .bool b) ∨ argumentValue word = .str word)) ∧
      (∀ (i : Interpreter σ) (line : String) (host : σ),
        Host.readAnswer i.host = (some line, host) →
          (∀ n : Int64, AnswerGives i host (.integer n) [] ↔
            Text.Denotes (Text.trim line.toList) n.toInt) ∧
            ((∀ z, Text.Denotes (Text.trim line.toList) z → z < -2 ^ 63 ∨ 2 ^ 63 ≤ z) →
              AnswerGives i host .nil
                [.invalidAnswer (String.ofList (Text.trim line.toList))])) ∧
      (∀ (host : σ) (digits : List Char), digits ≠ [] → (∀ c ∈ digits, c.isDigit = true) →
        (Text.placeValue digits < 2 ^ 63 →
          LiteralGives host (String.ofList digits)
            (.integer (.ofInt (Text.placeValue digits))) []) ∧
          (2 ^ 63 ≤ Text.placeValue digits →
            LiteralGives host (String.ofList digits) .nil
              [.invalidNumber (String.ofList digits)])) ∧
      ∀ n : Int64, argumentValue (Value.integer n).shown = .integer n ∧
        (∀ (i : Interpreter σ) (line : String) (host : σ),
          Host.readAnswer i.host = (some line, host) →
            Text.trim line.toList = (Value.integer n).shown.toList →
              AnswerGives i host (.integer n) []) ∧
        (0 ≤ n → ∀ host : σ, LiteralGives host (Value.integer n).shown (.integer n) []) := by
  refine ⟨fun word => ⟨fun n => argumentValue_eq_integer_iff, fun hrange => ?_⟩,
    fun i line host hanswer => ⟨fun n => answerGives_integer_iff hanswer, fun hrange => ?_⟩,
    fun host digits hne hdigits =>
      ⟨literalGives_of_lt host hne hdigits, literalGives_of_ge host hne hdigits⟩,
    fun n => ?_⟩
  · exact argumentValue_of_none (Text.readInt64?_eq_none_iff.mpr hrange)
  · exact answerGives_of_none hanswer (Text.readInt64?_eq_none_iff.mpr hrange)
  · have hdenotes : Text.Denotes (Value.integer n).shown.toList n.toInt := by
      rw [Value.shown, String.toList_ofList]
      exact Text.denotes_showInt n.toInt
    refine ⟨argumentValue_eq_integer_iff.mpr hdenotes, fun i line host hanswer htrim => ?_,
      fun hsign host => literalGives_shown host hsign⟩
    rw [answerGives_integer_iff hanswer, htrim]
    exact hdenotes

/-- Both ends of the range, with zeros in front: the least integer as a word and as an answer, the
greatest one as a literal, and the integer behind that in all three places. What is printed for the
greatest one is read back, with a blank in front of the answer. -/
theorem integers_read_as_denoted_bounds :
    let i := Interpreter.new (BufferHost.withAnswers ["\t-009223372036854775808 \n"])
    let j := Interpreter.new (BufferHost.withAnswers [" +9223372036854775808"])
    let k := Interpreter.new (BufferHost.withAnswers [" 9223372036854775807"])
    argumentValue "-009223372036854775808" = .integer Int64.minValue ∧
      argumentValue "9223372036854775808" = .str "9223372036854775808" ∧
        AnswerGives i (BufferHost.withAnswers []) (.integer Int64.minValue) [] ∧
          AnswerGives j (BufferHost.withAnswers []) .nil
            [.invalidAnswer "+9223372036854775808"] ∧
            LiteralGives i.host "009223372036854775807" (.integer Int64.maxValue) [] ∧
              LiteralGives i.host "9223372036854775808" .nil
                [.invalidNumber "9223372036854775808"] ∧
                AnswerGives k (BufferHost.withAnswers []) (.integer Int64.maxValue) [] ∧
                  LiteralGives i.host (Value.integer Int64.maxValue).shown
                    (.integer Int64.maxValue) [] := by
  intro i j k
  obtain ⟨hwords, hanswers, hliterals, hprinted⟩ := @integers_read_as_denoted BufferHost _
  have hleast : Text.Denotes "-009223372036854775808".toList Int64.minValue.toInt :=
    Text.readInt64?_eq_some_iff.mp (by decide)
  have hbehind := Text.readInt64?_eq_none_iff.mp
    (show Text.readInt64? "9223372036854775808".toList = none by decide)
  have hsigned := Text.readInt64?_eq_none_iff.mp
    (show Text.readInt64? (Text.trim " +9223372036854775808".toList) = none by decide)
  refine ⟨((hwords _).1 _).mpr hleast, ((hwords _).2 hbehind).resolve_left nofun,
    ((hanswers i _ _ rfl).1 _).mpr hleast, (hanswers j _ _ rfl).2 hsigned, ?_, ?_,
    (hprinted _).2.1 k _ _ rfl (by decide), (hprinted _).2.2 (by decide) i.host⟩
  · have hgreatest := (hliterals i.host "009223372036854775807".toList (by decide)
      (List.all_eq_true.mp rfl)).1 (by decide)
    rw [String.ofList_toList] at hgreatest
    exact hgreatest
  · have hnext := (hliterals i.host "9223372036854775808".toList (by decide)
      (List.all_eq_true.mp rfl)).2 (by decide)
    rw [String.ofList_toList] at hnext
    exact hnext

end DialogueScript
