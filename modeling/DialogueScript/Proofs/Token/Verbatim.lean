import DialogueScript.Proofs.Token.Numbers

set_option autoImplicit false

/-!
# Nothing is lost and nothing is invented

Reading a line drops its comment and the blanks that stand outside quotes, and nothing else: what is
left is just what its tokens were written as, one behind the other. Inside quotes blanks are kept,
and a quoted text that is not closed goes up to the last character of the line that is not a blank.
Only the words that may be written in any case are not kept as they were written.

So all quotes of a line can be found in its tokens: two for each quoted text, and one for a text
that is not closed. A line is therefore reported exactly if the number of its quotes is odd, and has
half as many quoted texts as quotes, rounded up.

**Proof sketch.** Both are invariants of the splitter. Wherever it is in a line, the unfinished
lexeme and the characters ahead make up what the lexemes from there on were written as
(`DialogueScript.Token.written_scanFrom`), and the quote of an unfinished quoted text and those
ahead make up the quotes of the lexemes from there on (`DialogueScript.Lexeme.quotes_scanFrom`).

## Main definitions

* `DialogueScript.Text.beforeComment` — a line in front of its comment.
* `DialogueScript.Text.condense` — a text without the blanks outside quotes.
* `DialogueScript.Token.WrittenAs`, `DialogueScript.Token.Written` — what tokens were written as.

## Main results

* `DialogueScript.Token.written_ofSource` — a line is what its tokens were written as.
* `DialogueScript.Lexed.unclosed_reported_exactly` — reports and quoted texts by the quotes of a
  line.
-/

namespace DialogueScript

/-! ## What is read of a line -/

namespace Text

/-- The text of a line in front of its first `//`; all of it if there is none. -/
def beforeComment (line : List Char) : List Char :=
  line.take (line.tails.findIdx fun rest => ['/', '/'].isPrefixOf rest)

/-- A text without the blanks that stand outside quotes. Each quote begins or ends a quoted text;
the text may begin inside one. -/
def condense : (quoting : Bool) → List Char → List Char
  | _, [] => []
  | quoting, c :: cs =>
    if c = '"' then c :: condense (!quoting) cs
    else if isBlank c && !quoting then condense quoting cs
    else c :: condense quoting cs

/-- Nothing is left of the empty text. -/
@[simp] lemma condense_nil (quoting : Bool) : condense quoting [] = [] := rfl

/-- A quote is left, and what follows it is quoted exactly if it was not. -/
@[simp] lemma condense_quote (quoting : Bool) (cs : List Char) :
    condense quoting ('"' :: cs) = '"' :: condense (!quoting) cs := by
  rw [condense, if_pos rfl]

/-- A blank is no quote. -/
lemma ne_quote_of_isBlank {c : Char} (h : isBlank c = true) : c ≠ '"' := by
  rintro rfl
  exact absurd h (by decide)

/-- A blank outside quotes is dropped. -/
lemma condense_cons_of_blank {c : Char} (h : isBlank c = true) (cs : List Char) :
    condense false (c :: cs) = condense false cs := by
  rw [condense, if_neg (ne_quote_of_isBlank h), if_pos (by simp [h])]

/-- Any other character outside quotes is kept. -/
lemma condense_cons_of_not_blank {c : Char} (h : ¬ isBlank c = true) (hquote : c ≠ '"')
    (cs : List Char) : condense false (c :: cs) = c :: condense false cs := by
  rw [condense, if_neg hquote, if_neg (by simp [h])]

/-- Inside quotes everything is kept. -/
lemma condense_cons_of_quoting {c : Char} (hquote : c ≠ '"') (cs : List Char) :
    condense true (c :: cs) = c :: condense true cs := by
  rw [condense, if_neg hquote, if_neg (by simp)]

/-- A character is removed with the blanks at the end if it is one of them. -/
lemma trimEnd_cons (c : Char) (cs : List Char) :
    trimEnd (c :: cs) = if trimEnd cs = [] ∧ isBlank c = true then [] else c :: trimEnd cs := by
  rw [trimEnd, trimEnd, List.reverse_cons, List.dropWhile_append]
  by_cases hcs : cs.reverse.dropWhile isBlank = []
  · by_cases hc : isBlank c = true
    · simp [hcs, hc]
    · simp [hcs, hc]
  · simp [hcs]

/-- Blanks at the beginning are outside quotes. -/
lemma condense_trim (cs : List Char) : condense false (trim cs) = condense false (trimEnd cs) := by
  induction cs with
  | nil => rfl
  | cons c cs ih =>
    by_cases hc : isBlank c = true
    · rw [trim, trimStart, List.dropWhile_cons_of_pos hc, ← trimStart, ← trim, ih, trimEnd_cons]
      split
      · next hnil => rw [hnil.1]
      · rw [condense_cons_of_blank hc]
    · rw [trim, trimStart, List.dropWhile_cons_of_neg hc]

/-- There are no quotes among blanks. -/
lemma count_dropWhile_isBlank (cs : List Char) :
    (cs.dropWhile isBlank).count '"' = cs.count '"' := by
  induction cs with
  | nil => rfl
  | cons c cs ih =>
    by_cases hc : isBlank c = true
    · rw [List.dropWhile_cons_of_pos hc, ih, List.count_cons_of_ne (ne_quote_of_isBlank hc)]
    · rw [List.dropWhile_cons_of_neg hc]

/-- There are as many quotes in a text without the blanks around it. -/
lemma count_trim (cs : List Char) : (trim cs).count '"' = cs.count '"' := by
  rw [trim, trimEnd, List.count_reverse, count_dropWhile_isBlank, List.count_reverse, trimStart,
    count_dropWhile_isBlank]

end Text

/-- A line is cut where its first comment begins. -/
lemma Lexeme.cutComment_eq (line : List Char) : cutComment line = Text.beforeComment line := by
  rw [Text.beforeComment]
  fun_induction cutComment line with
  | case1 => rfl
  | case2 more => simp [List.findIdx_cons]
  | case3 c cs hslashes ih =>
    have hnot : ['/', '/'].isPrefixOf (c :: cs) = false := by
      rw [Bool.eq_false_iff, ne_eq, List.isPrefixOf_iff_prefix, List.cons_prefix_cons]
      rintro ⟨rfl, more, hmore⟩
      exact hslashes more rfl hmore.symm
    rw [List.tails_cons, List.findIdx_cons, hnot, cond_false, List.take_succ_cons, ih]

/-! ## What tokens were written as -/

namespace Token

/-- What a token was written as: a quoted text with a quote at both ends, a word that may be written
in any case in capitals or small letters, and anything else as it is. -/
def WrittenAs (t : Token) (cs : List Char) : Prop :=
  match t.kind with
  | .string => cs = '"' :: (t.text.toList ++ ['"'])
  | .boolean => Text.foldCase cs = t.text.toList
  | .keyword =>
    if caselessWords.contains t.text then Text.foldCase cs = t.text.toList
    else cs = t.text.toList
  | _ => cs = t.text.toList

/-- What tokens were written as, one behind the other. The last of them may be a quoted text that
is not closed. -/
inductive Written : List Token → (closed : Bool) → List Char → Prop
  /-- No token is nothing. -/
  | nil : Written [] true []
  /-- A token is followed by other tokens. -/
  | cons {t : Token} {ts : List Token} {closed : Bool} {piece cs : List Char} :
    t.WrittenAs piece → Written ts closed cs → Written (t :: ts) closed (piece ++ cs)
  /-- A quoted text is not closed. -/
  | unclosed {t : Token} : t.kind = .string → Written [t] false ('"' :: t.text.toList)

/-- A chunk is what its token was written as. -/
lemma writtenAs_ofChunk (n : Nat) (cs : List Char) : (ofChunk n cs).WrittenAs cs := by
  have hsmall : ∀ word ∈ caselessWords, Text.foldCase word.toList = word.toList := by decide
  simp only [ofChunk]
  split
  · simp [WrittenAs]
  split
  · simp only [WrittenAs]
    split
    · next hcaseless =>
      have hword := hsmall _ (List.contains_iff_mem.mp hcaseless)
      rwa [String.toList_ofList] at hword ⊢
    · exact String.toList_ofList.symm
  split
  · exact String.toList_ofList.symm
  split
  · next hcaseless =>
    obtain ⟨word, hword, hsame⟩ := List.any_eq_true.mp hcaseless
    rw [Text.sameFolded, String.toList_ofList, beq_iff_eq, hsmall word hword] at hsame
    have hmem : caselessWords.contains (String.ofList (Text.foldCase cs)) = true := by
      rw [hsame, String.ofList_toList]
      exact List.contains_iff_mem.mpr hword
    simp only [WrittenAs, if_pos hmem, String.toList_ofList]
  · exact String.toList_ofList.symm

end Token

namespace Lexeme

/-- The splitter is inside quotes. -/
def Mode.quoting : Mode → Bool
  | .between => false
  | .inChunk _ => false
  | .inQuotes _ => true

/-- What was written of the unfinished lexeme. -/
def Mode.pending : Mode → List Char
  | .between => []
  | .inChunk run => run.reverse
  | .inQuotes run => '"' :: run.reverse

/-- A character that makes a symbol is no quote. -/
lemma ne_quote_of_isSymbolStart {c : Char} (h : isSymbolStart c = true) : c ≠ '"' := by
  rintro rfl
  exact absurd h (by decide)

end Lexeme

namespace Token

open Lexeme Text

/-- A lexeme that is closed stands in front of others. -/
lemma Written.lexeme {n : Nat} {l : Lexeme} {ls : List Lexeme} {piece cs : List Char}
    (hpiece : (ofLexeme n l).WrittenAs piece) (hclosed : l.isUnclosed = false)
    (h : Written (ls.map (ofLexeme n)) (!ls.any isUnclosed) cs) :
    Written ((l :: ls).map (ofLexeme n)) (!(l :: ls).any isUnclosed) (piece ++ cs) := by
  rw [List.map_cons, List.any_cons, hclosed, Bool.false_or]
  exact .cons hpiece h

/-- **The splitter loses nothing**: the unfinished lexeme and what is ahead, without the blanks
outside quotes, are what the tokens from there on were written as.

**Proof sketch.** By induction along the splitter. A character is dropped as a blank, becomes part
of the unfinished lexeme, or ends it; what ends a chunk may be a lexeme of its own or begin one. -/
lemma written_scanFrom (n : Nat) (mode : Mode) (cs : List Char) :
    Written ((scanFrom mode cs).map (ofLexeme n)) (!(scanFrom mode cs).any isUnclosed)
      (mode.pending ++ condense mode.quoting cs) := by
  have hsymbol : ∀ c, (ofLexeme n (.symbol c)).WrittenAs [c] := fun _ => String.toList_ofList.symm
  fun_induction scanFrom mode cs with
  -- Between two lexemes.
  | case1 => exact .nil
  | case2 c cs hblank ih => rwa [Mode.quoting, condense_cons_of_blank hblank]
  | case3 c cs hblank hstart ih =>
    rw [Mode.quoting, condense_cons_of_not_blank hblank (ne_quote_of_isSymbolStart hstart)]
    have hfirst := ih.lexeme (hsymbol c) rfl
    exact hfirst
  | case4 c cs _ _ hquote ih =>
    obtain rfl := beq_iff_eq.mp hquote
    rwa [Mode.quoting, condense_quote]
  | case5 c cs hblank _ hquote ih =>
    rwa [Mode.quoting, condense_cons_of_not_blank hblank (by simpa using hquote)]
  -- Inside a chunk.
  | case6 run => exact .cons (writtenAs_ofChunk n run.reverse) .nil
  | case7 run c cs hblank ih =>
    rw [Mode.quoting, condense_cons_of_blank hblank]
    exact .lexeme (writtenAs_ofChunk n run.reverse) rfl ih
  | case8 run c cs hblank hpunctuation ih =>
    have hstart : isSymbolStart c = true := by simp [isSymbolStart, hpunctuation]
    rw [Mode.quoting, condense_cons_of_not_blank hblank (ne_quote_of_isSymbolStart hstart)]
    exact .lexeme (writtenAs_ofChunk n run.reverse) rfl (.lexeme (hsymbol c) rfl ih)
  | case9 run c cs _ _ hquote ih =>
    obtain rfl := beq_iff_eq.mp hquote
    rw [Mode.quoting, condense_quote]
    exact .lexeme (writtenAs_ofChunk n run.reverse) rfl ih
  | case10 run c cs hblank _ hquote ih =>
    rw [Mode.quoting, condense_cons_of_not_blank hblank (by simpa using hquote)]
    simpa [Mode.pending, Mode.quoting] using ih
  -- Inside quotes.
  | case11 run =>
    have hunclosed := @Written.unclosed (ofLexeme n (.quoted run.reverse false)) rfl
    simpa [isUnclosed, ofLexeme, Mode.pending] using hunclosed
  | case12 run c cs hquote ih =>
    obtain rfl := beq_iff_eq.mp hquote
    have htext : (ofLexeme n (.quoted run.reverse true)).WrittenAs
        ('"' :: (run.reverse ++ ['"'])) := by
      simp [WrittenAs, ofLexeme]
    simpa [Mode.pending, Mode.quoting] using Written.lexeme htext rfl ih
  | case13 run c cs hquote ih =>
    rw [Mode.quoting, condense_cons_of_quoting (by simpa using hquote)]
    simpa [Mode.pending, Mode.quoting] using ih

/-- A line, without its comment and the blanks outside quotes, is what its tokens were written
as. -/
lemma written_ofLine (n : Nat) (line : List Char) :
    Written ((ofLine n line).filter fun t => t.kind != .newline)
      (!(Lexeme.ofLine line).any isUnclosed) (condense false (trimEnd (beforeComment line))) := by
  rw [filter_ofLine, ← condense_trim, ← cutComment_eq]
  exact written_scanFrom n .between (trim (cutComment line))

end Token

/-! ## Reports and quotes of a line -/

namespace Lexeme

/-- A text in quotes, closed or not. -/
def isQuoted : Lexeme → Bool
  | .quoted _ _ => true
  | _ => false

/-- **Quotes come in pairs**: of the quote of an unfinished quoted text and those ahead, two belong
to each quoted text from there on, but only one to a text that is not closed. -/
lemma quotes_scanFrom (mode : Mode) (cs : List Char) :
    2 * (scanFrom mode cs).countP isQuoted =
      mode.quoting.toNat + cs.count '"' + ((scanFrom mode cs).any isUnclosed).toNat := by
  fun_induction scanFrom mode cs with
  -- Between two lexemes.
  | case1 => rfl
  | case2 c cs hblank ih => rwa [List.count_cons_of_ne (Text.ne_quote_of_isBlank hblank)]
  | case3 c cs _ hstart ih => rwa [List.count_cons_of_ne (ne_quote_of_isSymbolStart hstart)]
  | case4 c cs _ _ hquote ih =>
    obtain rfl := beq_iff_eq.mp hquote
    rw [ih, List.count_cons_self, Mode.quoting, Mode.quoting, Bool.toNat_false, Bool.toNat_true]
    omega
  | case5 c cs _ _ hquote ih => rwa [List.count_cons_of_ne (by simpa using hquote)]
  -- Inside a chunk.
  | case6 run => rfl
  | case7 run c cs hblank ih => rwa [List.count_cons_of_ne (Text.ne_quote_of_isBlank hblank)]
  | case8 run c cs _ hpunctuation ih =>
    have hstart : isSymbolStart c = true := by simp [isSymbolStart, hpunctuation]
    rwa [List.count_cons_of_ne (ne_quote_of_isSymbolStart hstart)]
  | case9 run c cs _ _ hquote ih =>
    obtain rfl := beq_iff_eq.mp hquote
    have hchunk : isUnclosed (.chunk run.reverse) = false := rfl
    rw [List.countP_cons_of_neg Bool.false_ne_true, ih, List.any_cons, hchunk, Bool.false_or,
      List.count_cons_self, Mode.quoting, Mode.quoting, Bool.toNat_false, Bool.toNat_true]
    omega
  | case10 run c cs _ _ hquote ih => rwa [List.count_cons_of_ne (by simpa using hquote)]
  -- Inside quotes.
  | case11 run => rfl
  | case12 run c cs hquote ih =>
    obtain rfl := beq_iff_eq.mp hquote
    rw [List.countP_cons_of_pos rfl, Nat.mul_add, ih, List.any_cons, isUnclosed, Bool.not_true,
      Bool.false_or, List.count_cons_self, Mode.quoting, Mode.quoting, Bool.toNat_false,
      Bool.toNat_true]
    omega
  | case13 run c cs hquote ih => rwa [List.count_cons_of_ne (by simpa using hquote)]

/-- The quotes of a line in front of its comment are those of its lexemes. -/
lemma quotes_ofLine (line : List Char) :
    2 * (ofLine line).countP isQuoted =
      (Text.beforeComment line).count '"' + ((ofLine line).any isUnclosed).toNat := by
  have hscan := quotes_scanFrom .between (Text.trim (cutComment line))
  rw [Text.count_trim, Mode.quoting, Bool.toNat_false, Nat.zero_add] at hscan
  rw [← cutComment_eq]
  exact hscan

/-- A quoted text of a line is not closed exactly if the number of quotes is odd. -/
lemma any_isUnclosed_ofLine (line : List Char) :
    (ofLine line).any isUnclosed = ((Text.beforeComment line).count '"' % 2 == 1) := by
  have hquotes := quotes_ofLine line
  cases hany : (ofLine line).any isUnclosed with
  | false =>
    rw [hany, Bool.toNat_false] at hquotes
    exact (beq_false_of_ne (by omega)).symm
  | true =>
    rw [hany, Bool.toNat_true] at hquotes
    exact (beq_iff_eq.mpr (by omega)).symm

/-- A line has half as many quoted texts as quotes, rounded up. -/
lemma countP_isQuoted_ofLine (line : List Char) :
    (ofLine line).countP isQuoted = ((Text.beforeComment line).count '"' + 1) / 2 := by
  have hquotes := quotes_ofLine line
  have hle := Bool.toNat_le ((ofLine line).any isUnclosed)
  omega

end Lexeme

/-- The tokens of strings on a line are those of its quoted texts. -/
lemma Token.countP_string_ofLine (n : Nat) (line : List Char) :
    (ofLine n line).countP (fun t => t.kind == .string) =
      (Lexeme.ofLine line).countP Lexeme.isQuoted := by
  have hkind : ∀ l, ((ofLexeme n l).kind == .string) = l.isQuoted := by
    intro l
    cases l with
    | symbol _ => rfl
    | quoted _ _ => rfl
    | chunk cs => exact beq_false_of_ne fun h => absurd (h ▸ kind_ofChunk_mem n cs) (by decide)
  have hmap : ((Lexeme.ofLine line).map (ofLexeme n)).countP (fun t => t.kind == .string) =
      (Lexeme.ofLine line).countP Lexeme.isQuoted := by
    rw [List.countP_map]
    exact List.countP_congr fun l _ => by rw [Function.comp_apply, hkind]
  rcases ofLine_cases n line with ⟨-, heq⟩ | ⟨-, heq⟩
  · rw [heq, List.countP_append, hmap]
    rfl
  · rw [heq, hmap]

/-- The reports about a line have its number. -/
lemma ParseError.line_of_mem_ofLine {n : Nat} {cs : List Char} {error : ParseError}
    (h : error ∈ ofLine n cs) : error.line = n := by
  rw [ofLine] at h
  split at h
  · rw [List.mem_singleton.mp h]
  · simp at h

namespace Lexed

/-- A line is reported if a quoted text on it is not closed. -/
lemma mem_errors_iff {source : String} {line : List Char} {n : Nat}
    (h : (line, n) ∈ Text.numberedLines source) :
    ⟨n, .unterminatedString⟩ ∈ (ofSource source).errors ↔
      (Lexeme.ofLine line).any Lexeme.isUnclosed = true := by
  have hfilter : (ofSource source).errors.filter (fun error => error.line == n) =
      ParseError.ofLine n line := by
    rw [errors_ofSource]
    exact Text.filter_onLines_of_mem (fun _ _ _ => ParseError.line_of_mem_ofLine) h
  have hmem : (⟨n, .unterminatedString⟩ : ParseError) ∈ (ofSource source).errors ↔
      ⟨n, .unterminatedString⟩ ∈ ParseError.ofLine n line := by
    rw [← hfilter, List.mem_filter]
    exact (and_iff_left (beq_self_eq_true n)).symm
  rw [hmem, ParseError.ofLine]
  split
  · next hany => exact iff_of_true List.mem_cons_self hany
  · next hany => exact iff_of_false List.not_mem_nil hany

/-- The reports on some lines name those with an odd number of quotes. -/
lemma onLines_errors (n : Nat) (lines : List (List Char)) :
    Text.onLines ParseError.ofLine n lines =
      ((lines.zipIdx n).filter fun numbered =>
        (Text.beforeComment numbered.1).count '"' % 2 == 1).map
          fun numbered => ⟨numbered.2, .unterminatedString⟩ := by
  induction lines generalizing n with
  | nil => rfl
  | cons line later ih =>
    rw [Text.onLines, ih, List.zipIdx_cons, ParseError.ofLine, Lexeme.any_isUnclosed_ofLine,
      List.filter_cons]
    split
    · rfl
    · rfl

/-- **Unclosed quotes are reported exactly.** The reports on a source name, in order, those of its
lines that have an odd number of quotes in front of their comments; and on each line the tokens of
strings are half as many as these quotes, rounded up. -/
theorem unclosed_reported_exactly (source : String) :
    (ofSource source).errors =
        ((Text.numberedLines source).filter fun numbered =>
          (Text.beforeComment numbered.1).count '"' % 2 == 1).map
            (fun numbered => ⟨numbered.2, .unterminatedString⟩) ∧
      ∀ line n, (line, n) ∈ Text.numberedLines source →
        (Token.onLine n (ofSource source).tokens).countP (fun t => t.kind == .string) =
          ((Text.beforeComment line).count '"' + 1) / 2 := by
  constructor
  · rw [errors_ofSource, onLines_errors, Text.numberedLines]
  · intro line n h
    rw [Token.onLine_ofSource h, Token.countP_string_ofLine, Lexeme.countP_isQuoted_ofLine]

/-- A comment cuts the text on the first line in its middle, and on the second line one text is
closed and one is not. -/
theorem unclosed_reported_exactly_cut :
    let source := "say(\"a // \")\n\"x\" \"y\nz"
    (ofSource source).errors = [⟨1, .unterminatedString⟩, ⟨2, .unterminatedString⟩] ∧
      ("\"x\" \"y".toList, 2) ∈ Text.numberedLines source ∧
        (Token.onLine 2 (ofSource source).tokens).countP (fun t => t.kind == .string) = 2 := by
  intro source
  have hmem : ("\"x\" \"y".toList, 2) ∈ Text.numberedLines source := by decide +kernel
  obtain ⟨herrors, hstrings⟩ := unclosed_reported_exactly source
  exact ⟨herrors.trans (by decide +kernel), hmem, (hstrings _ _ hmem).trans (by decide +kernel)⟩

end Lexed

/-- **Nothing is lost and nothing is invented.** Take any line of a source up to its first `//`, cut
the blanks off its end and drop those that stand outside quotes. What is left is what the tokens of
the line were written as, one behind the other, the newline token apart: a quoted text with its
quotes, a word that may be written in any case in some case, and any other token as it is. Only the
last token can lack its closing quote, and it does exactly if the line is reported. -/
theorem Token.written_ofSource (source : String) (line : List Char) (n : Nat)
    (h : (line, n) ∈ Text.numberedLines source) :
    Written ((onLine n (Lexed.ofSource source).tokens).filter fun t => t.kind != .newline)
      (decide (⟨n, .unterminatedString⟩ ∉ (Lexed.ofSource source).errors))
      (Text.condense false (Text.trimEnd (Text.beforeComment line))) := by
  have hclosed : decide (⟨n, .unterminatedString⟩ ∉ (Lexed.ofSource source).errors) =
      !(Lexeme.ofLine line).any Lexeme.isUnclosed := by
    simp only [decide_not, Lexed.mem_errors_iff h, Bool.decide_eq_true]
  rw [onLine_ofSource h, hclosed]
  exact written_ofLine n line

/-- A declaration with blanks around its words, a word in capitals, and a text that is cut by a
comment and keeps only the blanks in its middle. -/
theorem Token.written_ofSource_cut :
    let source := "x\n global a=b , TRUE\" c  d \t// \""
    (" global a=b , TRUE\" c  d \t// \"".toList, 2) ∈ Text.numberedLines source ∧
      (⟨2, .unterminatedString⟩ : ParseError) ∈ (Lexed.ofSource source).errors ∧
        Written [⟨.keyword, "global", 2⟩, ⟨.identifier, "a=b", 2⟩, ⟨.symbol, ",", 2⟩,
            ⟨.boolean, "true", 2⟩, ⟨.string, " c  d", 2⟩] false
          "globala=b,TRUE\" c  d".toList := by
  intro source
  have hmem : (" global a=b , TRUE\" c  d \t// \"".toList, 2) ∈ Text.numberedLines source := by
    decide +kernel
  have herror : (⟨2, .unterminatedString⟩ : ParseError) ∈ (Lexed.ofSource source).errors := by
    decide +kernel
  have hwritten := Token.written_ofSource source _ 2 hmem
  have htokens : (onLine 2 (Lexed.ofSource source).tokens).filter (fun t => t.kind != .newline) =
      [⟨.keyword, "global", 2⟩, ⟨.identifier, "a=b", 2⟩, ⟨.symbol, ",", 2⟩,
        ⟨.boolean, "true", 2⟩, ⟨.string, " c  d", 2⟩] := by
    decide +kernel
  rw [htokens, decide_eq_false (not_not_intro herror)] at hwritten
  exact ⟨hmem, herror, hwritten⟩

end DialogueScript
