import DialogueScript.Proofs.Script.Declarations

set_option autoImplicit false

/-!
# Tokens by the numbers of their lines

Every token of a source has the number of the line that it was read from, so the tokens with a
given number are those of that line. This makes what is known of one line a fact about the tokens
of the whole source.

Two things are read off here. Reading keeps lines apart: two sources with a line feed in between
have the tokens and the reports of both, the second with other numbers. And newline tokens: at most
one of them has the number of a line, it stands behind all other tokens of the line, and it is there
exactly if the *text* of the first token is `global` or `local`. Such a token is a reserved word or
a quoted text. So the rule that newline tokens end the lines of declarations, and no others, holds
at every line but those that begin with one of these two words in quotes.

## Main definitions

* `DialogueScript.Text.numberedLines` — the lines of a source with their numbers.
* `DialogueScript.Token.onLine` — the tokens with a given number.
* `DialogueScript.Token.EndsDeclarations` — newline tokens end the lines of declarations only.

## Main results

* `DialogueScript.Token.onLine_ofSource` — the tokens with the number of a line are those of it.
* `DialogueScript.Lexed.ofSource_joined` — two sources with a line feed in between.
* `DialogueScript.Token.endsDeclarations_iff` — where the rule for newline tokens holds.
-/

namespace DialogueScript

/-! ## What is found on a line -/

/-- The lines of a source with their numbers, counted from one. -/
def Text.numberedLines (source : String) : List (List Char × Nat) :=
  (lines source.toList).zipIdx 1

namespace Text

variable {α β : Type} {f : Nat → β → List α} {number : α → Nat}

/-- What has a number that no line has is not found. -/
lemma filter_onLines_of_outside (hf : ∀ m line, ∀ a ∈ f m line, number a = m) {n k : Nat}
    {lines : List β} (hk : k < n ∨ n + lines.length ≤ k) :
    (onLines f n lines).filter (fun a => number a == k) = [] := by
  rw [List.filter_eq_nil_iff]
  intro a ha
  obtain ⟨m, line, hle, hlt, hmem⟩ := mem_onLines ha
  rw [hf m line a hmem, beq_iff_eq]
  omega

/-- **What has the number of a line** is what is found on that line. -/
lemma filter_onLines_of_mem (hf : ∀ m line, ∀ a ∈ f m line, number a = m) {n k : Nat} {line : β}
    {lines : List β} (h : (line, k) ∈ lines.zipIdx n) :
    (onLines f n lines).filter (fun a => number a == k) = f k line := by
  induction lines generalizing n with
  | nil => simp at h
  | cons first later ih =>
    rw [List.zipIdx_cons, List.mem_cons, Prod.mk.injEq] at h
    rw [onLines, List.filter_append]
    rcases h with ⟨rfl, rfl⟩ | hlater
    · have hall : (f k line).filter (fun a => number a == k) = f k line :=
        List.filter_eq_self.mpr fun a ha => beq_iff_eq.mpr (hf k line a ha)
      rw [hall, filter_onLines_of_outside hf (.inl (Nat.lt_succ_self k)), List.append_nil]
    · have hle : n + 1 ≤ k := (List.mem_zipIdx hlater).1
      have hnone : (f n first).filter (fun a => number a == k) = [] := by
        rw [List.filter_eq_nil_iff]
        intro a ha
        rw [hf n first a ha, beq_iff_eq]
        omega
      rw [hnone, ih hlater, List.nil_append]

end Text

namespace Token

/-- The tokens that stand on the given line. -/
def onLine (n : Nat) (ts : List Token) : List Token :=
  ts.filter fun t => t.line == n

variable {source : String} {n : Nat}

/-- **The tokens with the number of a line** of a source are the tokens of that line. -/
lemma onLine_ofSource {line : List Char} (h : (line, n) ∈ Text.numberedLines source) :
    onLine n (Lexed.ofSource source).tokens = ofLine n line := by
  have hlt := (List.mem_zipIdx h).2.1
  have hend : ([endOfInput (1 + (Text.lines source.toList).length)]).filter
      (fun t => t.line == n) = [] := by
    rw [List.filter_eq_nil_iff, List.forall_mem_singleton, endOfInput, beq_iff_eq]
    dsimp only
    omega
  rw [onLine, Lexed.tokens_ofSource, List.filter_append, hend, List.append_nil,
    Text.filter_onLines_of_mem (fun _ _ _ => line_of_mem_ofLine) h]

/-- On a line that a source does not have there is at most the end of the input. -/
lemma eq_endOfInput_of_mem_onLine (h : ∀ line, (line, n) ∉ Text.numberedLines source) {t : Token}
    (ht : t ∈ onLine n (Lexed.ofSource source).tokens) : t = endOfInput n := by
  have houtside : n < 1 ∨ 1 + (Text.lines source.toList).length ≤ n := by
    by_contra hinside
    have hlt : n - 1 < (Text.lines source.toList).length := by omega
    refine h ((Text.lines source.toList).get ⟨n - 1, hlt⟩) ?_
    rw [Text.numberedLines, List.mk_mem_zipIdx_iff_le_and_getElem?_sub]
    exact ⟨by omega, List.getElem?_eq_getElem hlt⟩
  rw [onLine, Lexed.tokens_ofSource, List.filter_append,
    Text.filter_onLines_of_outside (fun _ _ _ => line_of_mem_ofLine) houtside, List.nil_append,
    List.mem_filter, List.mem_singleton, beq_iff_eq] at ht
  obtain ⟨rfl, hline⟩ := ht
  rw [← hline]
  rfl

end Token

/-! ## Sources one behind the other -/

/-- **Two sources with a line feed in between** are read one by one. The tokens of the first are
kept but for the end of the input, which is the last of them, and behind them stand those of the
second; so do the reports. What comes from the second has the number of its line increased by the
number of line feeds in front of it.

**Proof sketch.** The lines of both are the lines of the first, with a line feed behind it, and
those of the second. A line feed at the end changes nothing that is found on the lines, not even
where it follows a carriage return (`Text.onLines_append_lineFeed`), and what is found on a line
does not depend on its number, but for the number itself (`Token.ofLine_add`,
`ParseError.ofLine_add`). -/
theorem Lexed.ofSource_joined (s₁ s₂ : String) :
    (ofSource s₁).tokens.getLast? =
        some (Token.endOfInput ((Text.lines s₁.toList).length + 1)) ∧
      ofSource (s₁ ++ "\n" ++ s₂) =
        ⟨(ofSource s₁).tokens.dropLast ++
            (ofSource s₂).tokens.map (Token.renumber (· + (s₁.toList.count '\n' + 1))),
          (ofSource s₁).errors ++
            (ofSource s₂).errors.map (ParseError.renumber (· + (s₁.toList.count '\n' + 1)))⟩ := by
  have hjoined : (s₁ ++ "\n" ++ s₂).toList = s₁.toList ++ '\n' :: s₂.toList := by
    simp [String.toList_append]
  have htokens := Text.onLines_append_lineFeed (fun _ => rfl) Token.ofLine_closeLine 1 s₁.toList
    s₂.toList
  have herrors := Text.onLines_append_lineFeed (fun _ => rfl) ParseError.ofLine_closeLine 1
    s₁.toList s₂.toList
  rw [Text.onLines_add fun n => Token.ofLine_add n _] at htokens
  rw [Text.onLines_add fun n => ParseError.ofLine_add n _] at herrors
  have hend : Token.endOfInput (1 + (Text.lines (s₁.toList ++ '\n' :: s₂.toList)).length) =
      (Token.endOfInput (1 + (Text.lines s₂.toList).length)).renumber
        (· + (s₁.toList.count '\n' + 1)) := by
    rw [Text.lines_append, List.length_append, Text.length_lines_concat, ← Nat.add_assoc,
      Nat.add_right_comm]
    rfl
  constructor
  · rw [tokens_ofSource, List.getLast?_concat, Nat.add_comm]
  · simp only [ofSource, hjoined, ofLines_eq, htokens, herrors, hend, List.dropLast_concat,
      List.map_append, List.map_singleton, List.append_assoc]

/-! ## Newline tokens -/

namespace Token

/-- On the given line stands one newline token, behind all other tokens of the line. -/
def LineEnds (ts : List Token) (n : Nat) : Prop :=
  ∃ others, onLine n ts = others ++ [⟨.newline, "", n⟩] ∧ ∀ t ∈ others, t.kind ≠ .newline

/-- The first token on the given line is a quoted text that reads like the word of a declaration. -/
def LineQuotes (ts : List Token) (n : Nat) : Prop :=
  ∃ first, ts.find? (fun t => t.line == n) = some first ∧ first.kind = .string ∧
    (first.text = "global" ∨ first.text = "local")

/-- Newline tokens end the lines of declarations only: a line that begins with the reserved word of
a declaration has one newline token, behind all its other tokens, and any other line has none. -/
def EndsDeclarations (ts : List Token) (n : Nat) : Prop :=
  (LineEnds ts n ↔ LineDeclares ts n) ∧
    (¬ LineDeclares ts n → ∀ t ∈ onLine n ts, t.kind ≠ .newline)

/-- No lexeme is read as a newline token. -/
lemma kind_ofLexeme_ne_newline (n : Nat) (l : Lexeme) : (ofLexeme n l).kind ≠ .newline := by
  cases l with
  | symbol _ => simp [ofLexeme]
  | quoted _ _ => simp [ofLexeme]
  | chunk cs => exact fun h => absurd (h ▸ kind_ofChunk_mem n cs) (by decide)

/-- The tokens of a line, but for the newline token. -/
lemma filter_ofLine (n : Nat) (cs : List Char) :
    (ofLine n cs).filter (fun t => t.kind != .newline) = (Lexeme.ofLine cs).map (ofLexeme n) := by
  have hself : ((Lexeme.ofLine cs).map (ofLexeme n)).filter (fun t => t.kind != .newline) =
      (Lexeme.ofLine cs).map (ofLexeme n) := by
    rw [List.filter_eq_self]
    intro t ht
    obtain ⟨l, -, rfl⟩ := List.mem_map.mp ht
    exact bne_iff_ne.mpr (kind_ofLexeme_ne_newline n l)
  simp only [ofLine]
  split
  · rw [List.filter_append, hself]
    exact List.append_nil _
  · exact hself

/-- **A text that reads like the word of a declaration** is that reserved word or stands in quotes:
no other token has it. -/
lemma kind_of_text_ofLexeme {n : Nat} {l : Lexeme}
    (h : (ofLexeme n l).text = "global" ∨ (ofLexeme n l).text = "local") :
    (ofLexeme n l).kind = .keyword ∨ (ofLexeme n l).kind = .string := by
  cases l with
  | quoted text closed => exact .inr rfl
  | symbol c =>
    have hlength : (ofLexeme n (.symbol c)).text.length = 1 := by simp [ofLexeme]
    rcases h with h | h
    · exact absurd hlength (by rw [h]; decide)
    · exact absurd hlength (by rw [h]; decide)
  | chunk cs =>
    -- Words in any case are kept in small letters, and none of them is the word of a declaration;
    -- what is kept as it is written would have been sorted as a reserved word.
    have hfolded : ∀ words, Text.isOneOfFolded (String.ofList cs) words = true →
        (∀ word ∈ words, String.ofList (Text.foldCase word.toList) ∉ ["global", "local"]) →
          ¬ (String.ofList (Text.foldCase cs) = "global" ∨
            String.ofList (Text.foldCase cs) = "local") := by
      intro words hcs hwords htext
      obtain ⟨word, hword, hsame⟩ := List.any_eq_true.mp hcs
      rw [Text.sameFolded, String.toList_ofList, beq_iff_eq] at hsame
      exact hwords word hword (by simpa [← hsame] using htext)
    have hreserved : String.ofList cs = "global" ∨ String.ofList cs = "local" →
        reservedWords.contains (String.ofList cs) = true := by
      rintro (hcs | hcs)
      · rw [hcs]; decide
      · rw [hcs]; decide
    left
    simp only [ofLexeme, ofChunk] at h ⊢
    split at h
    · next hboolean => exact absurd h (hfolded _ hboolean (by decide))
    split at h
    · next hboolean hword => rw [if_neg hboolean, if_pos hword]
    split at h
    · next hword _ => exact absurd (hreserved h) hword
    split at h
    · next hcaseless => exact absurd h (hfolded _ hcaseless (by decide))
    · next hword _ _ => exact absurd (hreserved h) hword

/-- Where the newline token of a line comes from: from the text of the first token, which is then a
reserved word or stands in quotes. On any other line there is none. -/
lemma ofLine_cases (n : Nat) (cs : List Char) :
    ((∃ first ∈ (ofLine n cs).head?, (first.text = "global" ∨ first.text = "local") ∧
          (first.kind = .keyword ∨ first.kind = .string)) ∧
        ofLine n cs = (Lexeme.ofLine cs).map (ofLexeme n) ++ [⟨.newline, "", n⟩]) ∨
      (∀ first ∈ (ofLine n cs).head?, ¬ (first.text = "global" ∨ first.text = "local")) ∧
        ofLine n cs = (Lexeme.ofLine cs).map (ofLexeme n) := by
  simp only [ofLine]
  cases Lexeme.ofLine cs with
  | nil => exact .inr (by simp [startsDeclaration])
  | cons l later =>
    rw [List.map_cons]
    by_cases htext : (ofLexeme n l).text = "global" ∨ (ofLexeme n l).text = "local"
    · have hstarts : startsDeclaration (ofLexeme n l :: later.map (ofLexeme n)) = true := by
        simpa [startsDeclaration] using htext
      rw [if_pos hstarts]
      exact .inl ⟨⟨ofLexeme n l, rfl, htext, kind_of_text_ofLexeme htext⟩, rfl⟩
    · have hstarts : ¬ startsDeclaration (ofLexeme n l :: later.map (ofLexeme n)) = true := by
        simpa [startsDeclaration] using htext
      rw [if_neg hstarts]
      exact .inr ⟨by simpa using htext, rfl⟩

/-- Where the tokens with some number are those of a line, the newline token is there exactly if the
line begins with the word of a declaration, as such or in quotes. -/
lemma lineEnds_of_onLine {ts : List Token} {n : Nat} {line : List Char}
    (h : onLine n ts = ofLine n line) :
    (LineEnds ts n ↔ LineDeclares ts n ∨ LineQuotes ts n) ∧
      (¬ LineEnds ts n → ∀ t ∈ onLine n ts, t.kind ≠ .newline) := by
  rw [LineDeclares, LineQuotes, LineEnds, ← List.head?_filter, ← onLine, h]
  have hlexemes : ∀ t ∈ (Lexeme.ofLine line).map (ofLexeme n), t.kind ≠ .newline := by
    rw [List.forall_mem_map]
    exact fun l _ => kind_ofLexeme_ne_newline n l
  rcases ofLine_cases n line with ⟨⟨first, hfirst, htext, hkind⟩, heq⟩ | ⟨hnot, heq⟩
  · have hends : ∃ others, ofLine n line = others ++ [⟨.newline, "", n⟩] ∧
        ∀ t ∈ others, t.kind ≠ .newline := ⟨_, heq, hlexemes⟩
    refine ⟨iff_of_true hends ?_, fun hnot => absurd hends hnot⟩
    rcases hkind with hkind | hkind
    · exact .inl ⟨first, hfirst, htext.imp (⟨hkind, ·⟩) (⟨hkind, ·⟩)⟩
    · exact .inr ⟨first, hfirst, hkind, htext⟩
  · refine ⟨iff_of_false ?_ ?_, fun _ => by rwa [heq]⟩
    · rintro ⟨others, hothers, -⟩
      exact hlexemes ⟨.newline, "", n⟩ (by simp [← heq, hothers]) rfl
    · rintro (⟨first, hfirst, hword⟩ | ⟨first, hfirst, -, htext⟩)
      · exact hnot first hfirst (hword.imp And.right And.right)
      · exact hnot first hfirst htext

/-- **Where newline tokens are.** A line has one at its end exactly if it begins with the word of a
declaration, as such or in quotes; otherwise it has none.

**Proof sketch.** The tokens with the number of a line are those of the line (`onLine_ofSource`),
and what stands at their end depends on the text of the first (`ofLine_cases`). With any other
number there is at most the end of the input. -/
lemma lineEnds_ofSource (source : String) (n : Nat) :
    (LineEnds (Lexed.ofSource source).tokens n ↔
        LineDeclares (Lexed.ofSource source).tokens n ∨
          LineQuotes (Lexed.ofSource source).tokens n) ∧
      (¬ LineEnds (Lexed.ofSource source).tokens n →
        ∀ t ∈ onLine n (Lexed.ofSource source).tokens, t.kind ≠ .newline) := by
  by_cases hsource : ∃ line, (line, n) ∈ Text.numberedLines source
  · obtain ⟨line, hline⟩ := hsource
    exact lineEnds_of_onLine (onLine_ofSource hline)
  · have hend : ∀ t ∈ onLine n (Lexed.ofSource source).tokens, t = endOfInput n :=
      fun t => eq_endOfInput_of_mem_onLine (not_exists.mp hsource)
    rw [LineDeclares, LineQuotes, LineEnds, ← List.head?_filter, ← onLine]
    refine ⟨iff_of_false ?_ ?_, fun _ t ht => by simp [hend t ht, endOfInput]⟩
    · rintro ⟨others, hothers, -⟩
      exact absurd (hend ⟨.newline, "", n⟩ (by simp [hothers])) (by simp [endOfInput])
    · rintro (⟨first, hfirst, hword⟩ | ⟨first, hfirst, hkind, -⟩)
      · rw [hend first (List.mem_of_head? hfirst)] at hword
        simp [IsWord, endOfInput] at hword
      · simp [hend first (List.mem_of_head? hfirst), endOfInput] at hkind

/-- The first token of a line cannot be both a reserved word and a quoted text. -/
lemma LineQuotes.not_lineDeclares {ts : List Token} {n : Nat} (h : LineQuotes ts n) :
    ¬ LineDeclares ts n := by
  rintro ⟨first, hfirst, hword⟩
  obtain ⟨quoted, hquoted, hkind, -⟩ := h
  obtain rfl := Option.some.inj (hfirst.symm.trans hquoted)
  rcases hword with hword | hword <;> simp [hword.1] at hkind

/-- **Where newline tokens end the lines of declarations only.** Whatever the source is, the rule
holds at every line that does not begin with a quoted `global` or `local`, and at no other. At those
the line has a newline token too, although it declares nothing. -/
theorem endsDeclarations_iff (source : String) (n : Nat) :
    (EndsDeclarations (Lexed.ofSource source).tokens n ↔
        ¬ LineQuotes (Lexed.ofSource source).tokens n) ∧
      (LineQuotes (Lexed.ofSource source).tokens n →
        LineEnds (Lexed.ofSource source).tokens n ∧
          ¬ LineDeclares (Lexed.ofSource source).tokens n) := by
  obtain ⟨hends, hnone⟩ := lineEnds_ofSource source n
  refine ⟨⟨?_, fun hquotes => ⟨hends.trans (or_iff_left hquotes), fun hdeclares => ?_⟩⟩,
    fun hquotes => ⟨hends.mpr (.inr hquotes), hquotes.not_lineDeclares⟩⟩
  · rintro ⟨hrule, -⟩ hquotes
    exact hquotes.not_lineDeclares (hrule.mp (hends.mpr (.inr hquotes)))
  · exact hnone fun hline => (hends.mp hline).elim hdeclares hquotes

/-- A line in the middle of a call that holds nothing but the quoted word `global`. -/
theorem endsDeclarations_iff_quoted :
    let ts := (Lexed.ofSource "message(\n\"global\"\n)").tokens
    LineQuotes ts 2 ∧ LineEnds ts 2 ∧ ¬ LineDeclares ts 2 ∧ ¬ EndsDeclarations ts 2 := by
  intro ts
  have hquotes : LineQuotes ts 2 := ⟨⟨.string, "global", 2⟩, by decide +kernel, rfl, .inl rfl⟩
  obtain ⟨hrule, hline⟩ := endsDeclarations_iff "message(\n\"global\"\n)" 2
  exact ⟨hquotes, (hline hquotes).1, (hline hquotes).2, fun hends => hrule.mp hends hquotes⟩

end Token

end DialogueScript
