import DialogueScript.Proofs.Parser.Continuation
import DialogueScript.Proofs.Parser.Renumbering
import DialogueScript.Proofs.Printing.RoundTrip
import DialogueScript.Proofs.Token.Lines

set_option autoImplicit false

/-!
# Loading one source behind another

If a source loads without a report, then another one may be written behind it, on a line of its own:
loading both gives the statements of the first and then those of the second, and the reports are
those on the second, some lines further down. The second source need not be well formed.

This takes two conditions. A declaration of variables begins its line, for only then its list of
names ends with the line; and the second source does not begin with an opening parenthesis, which a
name at the end of the first one would take for its own.

## Main definitions

* `DialogueScript.Token.DeclarationsLead` — every `global` and `local` is the first token of its
  line.

## Main results

* `DialogueScript.Grammar.continues_onLines` — the second source does not reach into the first.
* `DialogueScript.Script.load_append_lineFeed` — loading one source behind another.
-/

namespace DialogueScript

open Grammar

/-- Every `global` and every `local` is the first token of its line. -/
def Token.DeclarationsLead (ts : List Token) : Prop :=
  ts.Pairwise fun t u => u.IsWord "global" ∨ u.IsWord "local" → t.line ≠ u.line

/-- Whether a token is a reserved word can be decided. -/
instance (t : Token) (word : String) : Decidable (t.IsWord word) :=
  inferInstanceAs (Decidable (_ ∧ _))

/-- Whether declarations only stand at the beginning of lines can be decided. -/
instance (ts : List Token) : Decidable (Token.DeclarationsLead ts) :=
  inferInstanceAs (Decidable (List.Pairwise _ ts))

/-! ## Lines with other numbers -/

/-- If what is found on a line only shifts with its number, then so does what is found on some
lines. -/
lemma Text.onLines_add {α β : Type} {f : Nat → β → List α} {k : Nat} {shift : α → α}
    (h : ∀ n line, f (n + k) line = (f n line).map shift) (n : Nat) (lines : List β) :
    Text.onLines f (n + k) lines = (Text.onLines f n lines).map shift := by
  induction lines generalizing n with
  | nil => rfl
  | cons line later ih =>
    rw [onLines, onLines, List.map_append, h, ← ih, Nat.add_right_comm]

/-- What is found on some lines is found on one of them. -/
lemma Text.mem_onLines {α β : Type} {f : Nat → β → List α} {n : Nat} {lines : List β} {a : α}
    (h : a ∈ Text.onLines f n lines) :
    ∃ m line, n ≤ m ∧ m < n + lines.length ∧ a ∈ f m line := by
  induction lines generalizing n with
  | nil => simp [onLines] at h
  | cons line later ih =>
    rcases List.mem_append.mp h with h | h
    · exact ⟨n, line, Nat.le_refl n, by simp, h⟩
    · obtain ⟨m, line, hle, hlt, ha⟩ := ih h
      refine ⟨m, line, by omega, ?_, ha⟩
      rw [List.length_cons]
      omega

namespace Token

variable {n : Nat} {cs : List Char} {t : Token}

/-- The token of a lexeme on a later line is its token, renumbered. -/
lemma ofLexeme_add (n k : Nat) (l : Lexeme) :
    ofLexeme (n + k) l = (ofLexeme n l).renumber (· + k) := by
  cases l with
  | symbol _ => rfl
  | quoted _ _ => rfl
  | chunk text =>
    simp only [ofLexeme, ofChunk, renumber]
    split
    · rfl
    · split
      · rfl
      · split
        · rfl
        · split <;> rfl

/-- Whether tokens begin a declaration has nothing to do with their lines. -/
lemma startsDeclaration_renumber (g : Nat → Nat) (ts : List Token) :
    startsDeclaration (ts.map (renumber g)) = startsDeclaration ts := by
  cases ts <;> rfl

/-- The tokens of a line further down are its tokens, renumbered. -/
lemma ofLine_add (n k : Nat) (cs : List Char) :
    ofLine (n + k) cs = (ofLine n cs).map (renumber (· + k)) := by
  have hmap : (Lexeme.ofLine cs).map (ofLexeme (n + k)) =
      ((Lexeme.ofLine cs).map (ofLexeme n)).map (renumber (· + k)) := by
    rw [List.map_map]
    exact List.map_congr_left fun l _ => ofLexeme_add n k l
  simp only [ofLine, hmap, startsDeclaration_renumber]
  split
  · rw [List.map_append]
    rfl
  · rfl

/-- The tokens of a line have its number. -/
lemma line_of_mem_ofLine (h : t ∈ ofLine n cs) : t.line = n := by
  have hmap : ∀ t ∈ (Lexeme.ofLine cs).map (ofLexeme n), t.line = n := by
    intro t ht
    obtain ⟨l, -, rfl⟩ := List.mem_map.mp ht
    exact ofLexeme_line
  simp only [ofLine] at h
  split at h
  · rcases List.mem_append.mp h with h | h
    · exact hmap t h
    · rw [List.mem_singleton.mp h]
  · exact hmap t h

/-- A declaration that begins its line is ended by a newline token on that line. -/
lemma exists_newline_of_ofLine {after : List Token} (h : ofLine n cs = t :: after)
    (ht : t.IsWord "global" ∨ t.IsWord "local") : ∃ u ∈ after, u.kind = .newline := by
  have htext : (t.text == "global" || t.text == "local") = true := by
    rcases ht with ht | ht
    · simp [ht.2]
    · simp [ht.2]
  simp only [ofLine] at h
  cases htokens : (Lexeme.ofLine cs).map (ofLexeme n) with
  | nil => simp [htokens, startsDeclaration] at h
  | cons u ts =>
    rw [htokens] at h
    split at h
    · obtain ⟨rfl, rfl⟩ := List.cons.inj h
      exact ⟨⟨.newline, "", n⟩, by simp, rfl⟩
    · rename_i hstarts
      obtain ⟨rfl, rfl⟩ := List.cons.inj h
      exact absurd htext hstarts

/-- **Where declarations begin their lines, a newline token follows each of them.**

**Proof sketch.** Induction on the lines. A declaration on the first line is the first token there,
because any token before it would stand on its line. -/
lemma exists_newline_of_onLines {lines : List (List Char)} {before after : List Token}
    (h : Text.onLines ofLine n lines = before ++ t :: after)
    (hlead : DeclarationsLead (Text.onLines ofLine n lines))
    (ht : t.IsWord "global" ∨ t.IsWord "local") : ∃ u ∈ after, u.kind = .newline := by
  induction lines generalizing n before with
  | nil => simp [Text.onLines] at h
  | cons line later ih =>
    have hlater : DeclarationsLead (Text.onLines ofLine (n + 1) later) :=
      hlead.sublist (List.sublist_append_right _ _)
    rw [Text.onLines] at h hlead
    rcases List.append_eq_append_iff.mp h with ⟨before', -, h⟩ | ⟨onLine, hline, h⟩
    · exact ih h hlater
    cases onLine with
    | nil =>
      have hnext : Text.onLines ofLine (n + 1) later = [] ++ t :: after := h.symm
      exact ih hnext hlater
    | cons u onLine =>
      obtain ⟨rfl, rfl⟩ := List.cons.inj h
      cases before with
      | nil =>
        obtain ⟨u, hu, hkind⟩ := exists_newline_of_ofLine hline ht
        exact ⟨u, List.mem_append_left _ hu, hkind⟩
      | cons first before =>
        have hmem : first ∈ ofLine n line ∧ t ∈ ofLine n line := by simp [hline]
        have hsame : first.line = t.line :=
          (line_of_mem_ofLine hmem.1).trans (line_of_mem_ofLine hmem.2).symm
        rw [hline] at hlead
        have hafter : t ∈ before ++ t :: onLine ++ Text.onLines ofLine (n + 1) later := by simp
        exact absurd hsame (List.rel_of_pairwise_cons hlead hafter ht)

end Token

/-- The reports about a line further down are its reports, renumbered. -/
lemma ParseError.ofLine_add (n k : Nat) (cs : List Char) :
    ParseError.ofLine (n + k) cs = (ParseError.ofLine n cs).map (ParseError.renumber (· + k)) := by
  simp only [ofLine]
  split <;> rfl

/-! ## Whole sources -/

/-- No line has the end marker among its tokens. -/
lemma Token.kind_ne_eof_of_mem_onLines {n : Nat} {lines : List (List Char)} {t : Token}
    (h : t ∈ Text.onLines Token.ofLine n lines) : t.kind ≠ .eof := by
  obtain ⟨m, line, -, -, h⟩ := Text.mem_onLines h
  have hline : t ∈ Token.ofLexemes m (Lexeme.ofLine line) := h
  exact Token.kind_ne_eof_of_mem_ofLexemes hline

/-- The cursor at the beginning of some lines, the first of which has the given number. -/
def Cursor.ofLines (n : Nat) (lines : List (List Char)) : Cursor :=
  ⟨Text.onLines Token.ofLine n lines, n + lines.length⟩

/-- At lines with other numbers the cursor sees the same, with those numbers. -/
lemma Cursor.ofLines_add (n k : Nat) (lines : List (List Char)) :
    Cursor.ofLines (n + k) lines = (Cursor.ofLines n lines).renumber (· + k) := by
  simp only [ofLines, renumber, Text.onLines_add fun n => Token.ofLine_add n k, Nat.add_right_comm]

/-- The tokens of two texts on lines of their own are those of the first one, and behind them those
of the second one further down, which also decides where the input ends. -/
lemma Cursor.ofLines_append_lineFeed (n : Nat) (a b : List Char) :
    Cursor.ofLines n (Text.lines (a ++ '\n' :: b)) =
      ⟨Text.onLines Token.ofLine n (Text.lines a) ++
          (Cursor.ofLines (n + (a.count '\n' + 1)) (Text.lines b)).tokens,
        (Cursor.ofLines (n + (a.count '\n' + 1)) (Text.lines b)).endLine⟩ := by
  have hlength : (Text.lines (a ++ '\n' :: b)).length =
      a.count '\n' + 1 + (Text.lines b).length := by
    rw [Text.lines_append, List.length_append, Text.length_lines_concat]
  simp only [ofLines, hlength, Nat.add_assoc,
    Text.onLines_append_lineFeed (fun _ => rfl) Token.ofLine_closeLine]

/-- A script is what the parser gives at the beginning of its lines, and what was wrong with the
lines is reported first. -/
lemma Script.load_eq (id source : String) :
    Script.load id source =
      ⟨id, (Parser.program (Cursor.ofLines 1 (Text.lines source.toList))).value,
        Text.onLines ParseError.ofLine 1 (Text.lines source.toList) ++
          (Parser.program (Cursor.ofLines 1 (Text.lines source.toList))).errors⟩ := by
  have hstart : Cursor.start (Lexed.ofSource source).tokens =
      Cursor.ofLines 1 (Text.lines source.toList) := by
    rw [Lexed.tokens_ofSource]
    exact Cursor.start_append_endOfInput (fun _ => Token.kind_ne_eof_of_mem_onLines) _
  rw [← hstart, ← Lexed.errors_ofSource]
  rfl

/-- A source that stands behind another does not reach into it. -/
lemma Grammar.continues_onLines {a : List Char} {lines : List (List Char)}
    (hlead : Token.DeclarationsLead (Text.onLines Token.ofLine 1 (Text.lines a)))
    (hnext : ∀ t ∈ (Text.onLines Token.ofLine 1 lines).head?, t.isSymbol "(" = false) :
    Continues (Text.onLines Token.ofLine 1 (Text.lines a))
      (Text.onLines Token.ofLine (1 + (a.count '\n' + 1)) lines) where
  opening u hu := by
    rw [Text.onLines_add fun n => Token.ofLine_add n _, List.head?_map] at hu
    obtain ⟨t, ht, rfl⟩ := Option.map_eq_some_iff.mp hu
    exact hnext t ht
  line t ht u hu := by
    -- With a line feed at its end the first source has the same tokens, on a known number of lines.
    rw [← Text.onLines_lines_concat (fun _ => rfl) Token.ofLine_closeLine] at ht
    obtain ⟨m, line, -, hm, ht⟩ := Text.mem_onLines ht
    obtain ⟨m', line', hm', -, hu⟩ := Text.mem_onLines (List.mem_of_mem_head? hu)
    rw [Token.line_of_mem_ofLine ht, Token.line_of_mem_ofLine hu]
    rw [Text.length_lines_concat] at hm
    omega
  declaration hsuffix ht := by
    obtain ⟨before, h⟩ := hsuffix
    exact Token.exists_newline_of_onLines h.symm hlead ht

/-- What loads without a report is a program. -/
lemma Script.program_of_errors_eq_nil {id source : String}
    (h : (Script.load id source).errors = []) :
    Program (Text.onLines Token.ofLine 1 (Text.lines source.toList))
        (Script.load id source).statements ∧
      Stmt.listNesting (Script.load id source).statements ≤ Parser.nestingLimit := by
  rw [Script.load_eq] at h ⊢
  obtain ⟨-, herrors⟩ := List.append_eq_nil_iff.mp h
  have haccepts : Parser.Accepts Parser.program (Cursor.ofLines 1 (Text.lines source.toList))
      (Parser.program (Cursor.ofLines 1 (Text.lines source.toList))).value
      (Parser.program (Cursor.ofLines 1 (Text.lines source.toList))).rest := by
    rw [Parser.Accepts, ← herrors]
  exact (Parser.program_accepts_iff.mp haccepts).2

/-- **Loading one source behind another.** If the first source loads without a report and every
declaration of variables in it begins its line, and if the second source, which may be anything,
does not begin with an opening parenthesis, then loading both with a line feed in between gives the
statements of the first and those of the second, and the reports on the second with their lines
increased by the number of lines that stand before it.

**Proof sketch.** The tokens of both are those of the first and, with increased lines, those of the
second. The first are a program that the second do not reach into (`Grammar.continues_onLines`), so
the parser goes on behind it as if it had just begun (`Parser.program_append`), and there it does
what it does on the second source alone (`Parser.renumbers_program`). -/
theorem Script.load_append_lineFeed (id s₁ s₂ : String) (hclean : (Script.load id s₁).errors = [])
    (hlead : Token.DeclarationsLead (Lexed.ofSource s₁).tokens)
    (hnext : ∀ t ∈ (Lexed.ofSource s₂).tokens.head?, t.isSymbol "(" = false) :
    Script.load id (s₁ ++ "\n" ++ s₂) =
      ⟨id, (Script.load id s₁).statements ++ (Script.load id s₂).statements,
        (Script.load id s₂).errors.map
          (ParseError.renumber (· + (s₁.toList.count '\n' + 1)))⟩ := by
  have hjoined : (s₁ ++ "\n" ++ s₂).toList = s₁.toList ++ '\n' :: s₂.toList := by
    simp [String.toList_append]
  obtain ⟨hprogram, hnesting⟩ := Script.program_of_errors_eq_nil hclean
  have hlines : Text.onLines ParseError.ofLine 1 (Text.lines s₁.toList) = [] := by
    rw [Script.load_eq] at hclean
    exact (List.append_eq_nil_iff.mp hclean).1
  have hcontinues : Continues (Text.onLines Token.ofLine 1 (Text.lines s₁.toList))
      (Cursor.ofLines (1 + (s₁.toList.count '\n' + 1)) (Text.lines s₂.toList)).tokens := by
    rw [Lexed.ofSource, Lexed.ofLines_eq] at hlead hnext
    refine continues_onLines (hlead.sublist (List.sublist_append_left _ _)) fun t ht => hnext t ?_
    rw [List.head?_append, ht]
    rfl
  have hrun := Parser.renumbers_program (g := (· + (s₁.toList.count '\n' + 1)))
    (fun _ _ => Nat.add_right_cancel) (Cursor.ofLines 1 (Text.lines s₂.toList))
  rw [← Cursor.ofLines_add] at hrun
  rw [Script.load_eq, hjoined, Cursor.ofLines_append_lineFeed,
    Parser.program_append hprogram hnesting hcontinues, hrun,
    Text.onLines_append_lineFeed (fun _ => rfl) ParseError.ofLine_closeLine, hlines,
    Text.onLines_add fun n => ParseError.ofLine_add n _, Script.load_eq id s₂]
  simp only [Parsed.renumber, List.nil_append, List.map_append]

/-- A `return` without a value and a declaration at the end of the first source, and a second source
that begins with a value and a name, in which nothing is right. -/
theorem Script.load_append_lineFeed_broken :
    let first := "code f\nreturn\nendcode\nlocal a"
    let second := "b, \"c\n)"
    (Script.load "f" first).errors = [] ∧
      Script.load "f" (first ++ "\n" ++ second) =
        ⟨"f", (Script.load "f" first).statements ++ (Script.load "f" second).statements,
          (Script.load "f" second).errors.map (ParseError.renumber (· + 4))⟩ := by
  intro first second
  have hclean : (Script.load "f" first).errors = [] := by decide +kernel
  have hcount : first.toList.count '\n' + 1 = 4 := by decide +kernel
  rw [← hcount]
  exact ⟨hclean, Script.load_append_lineFeed "f" first second hclean (by decide +kernel)
    (by decide +kernel)⟩

end DialogueScript
