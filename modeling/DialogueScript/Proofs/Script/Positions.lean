import DialogueScript.Proofs.Parser.Ending
import DialogueScript.Proofs.Token.Verbatim

set_option autoImplicit false

/-!
# Where reports stand

A report of the parser names the line of the token at the cursor, and the cursor only moves forward.
If the lines of the tokens never decrease, the lines of the reports do not either, wherever parsing
gives up and goes on. What carries the argument is one fact about everything a parser can do: the
lines of the reports so far, followed by the lines that are still ahead, never decrease.

The tokens of a source come by line, and its end comes one line further down. So the reports on a
source are those on its lines, each of which has at most one, and then those on its statements.

## Main definitions

* `DialogueScript.Cursor.linesAhead` — the lines on which a parser can still report something.

## Main results

* `DialogueScript.Walks.line_mem` — a report names a line that was ahead.
* `DialogueScript.Walks.lines_ordered` — the lines of reports never decrease.
* `DialogueScript.Cursor.start_cases` — what is read of any token list.
* `DialogueScript.Text.pairwise_onLines` — what is found on lines is in the order of the lines.
* `DialogueScript.Script.reports_in_order` — the reports on token lists and on sources.
-/

namespace DialogueScript

/-! ## Lines ahead -/

namespace Cursor

/-- The lines of the tokens ahead, and the line on which the input ends. -/
def linesAhead (c : Cursor) : List Nat :=
  c.tokens.map Token.line ++ [c.endLine]

/-- A line is ahead exactly if a token ahead is on it or the input ends there. -/
lemma mem_linesAhead {c : Cursor} {n : Nat} :
    n ∈ c.linesAhead ↔ (∃ t ∈ c.tokens, t.line = n) ∨ n = c.endLine := by
  rw [linesAhead, List.mem_append, List.mem_map, List.mem_singleton]

/-- The first line ahead is that of the token at the cursor. -/
lemma exists_linesAhead_eq (c : Cursor) : ∃ later, c.linesAhead = c.peek.line :: later := by
  obtain ⟨_ | ⟨t, ts⟩, n⟩ := c
  · exact ⟨[], rfl⟩
  · exact ⟨ts.map Token.line ++ [n], rfl⟩

/-- The line of the next token is ahead. -/
lemma peek_line_mem_linesAhead (c : Cursor) : c.peek.line ∈ c.linesAhead := by
  obtain ⟨later, heq⟩ := c.exists_linesAhead_eq
  rw [heq]
  exact List.mem_cons_self

end Cursor

namespace Walks

variable {c c' : Cursor} {errors : List ParseError}

/-- Walking, a parser leaves lines behind and finds no others ahead. -/
lemma linesAhead_suffix (h : Walks c errors c') : c'.linesAhead <:+ c.linesAhead := by
  obtain ⟨⟨taken, htokens⟩, hend⟩ := h.suffix
  refine ⟨taken.map Token.line, ?_⟩
  rw [Cursor.linesAhead, Cursor.linesAhead, hend, ← htokens, List.map_append, List.append_assoc]

/-- **A report names a line that was ahead.** -/
lemma line_mem (h : Walks c errors c') : ∀ error ∈ errors, error.line ∈ c.linesAhead := by
  induction h with
  | refl => simp
  | advance => simp
  | report _ =>
    intro error herror
    rw [List.mem_singleton.mp herror]
    exact Cursor.peek_line_mem_linesAhead _
  | trans hfirst _ ihfirst ihsecond =>
    intro error herror
    rcases List.mem_append.mp herror with herror | herror
    · exact ihfirst error herror
    · exact hfirst.linesAhead_suffix.subset (ihsecond error herror)

/-- **The lines of the reports never decrease**, and the lines still ahead come after them.

**Proof sketch.** A report repeats the first line ahead, and taking a token drops it. Of two walks,
the second reports and leaves only lines that were ahead after the first. -/
lemma lines_ordered (h : Walks c errors c') (hc : c.linesAhead.Pairwise (· ≤ ·)) :
    (errors.map ParseError.line ++ c'.linesAhead).Pairwise (· ≤ ·) := by
  induction h with
  | refl => exact hc
  | @advance c =>
    have hsuffix : c.advance.linesAhead <:+ c.linesAhead := Walks.advance.linesAhead_suffix
    exact hc.sublist hsuffix.sublist
  | @report c fault =>
    obtain ⟨later, heq⟩ := c.exists_linesAhead_eq
    rw [heq] at hc ⊢
    refine List.pairwise_cons.mpr ⟨fun line hline => ?_, hc⟩
    rcases List.mem_cons.mp hline with rfl | hline
    · exact Nat.le_refl _
    · exact List.rel_of_pairwise_cons hc hline
  | @trans c mid c' first second hfirst hsecond ihfirst ihsecond =>
    obtain ⟨hreported, hmid, hbefore⟩ := List.pairwise_append.mp (ihfirst hc)
    rw [List.map_append, List.append_assoc]
    refine List.pairwise_append.mpr ⟨hreported, ihsecond hmid, fun line hline later hlater => ?_⟩
    refine hbefore line hline later ?_
    rcases List.mem_append.mp hlater with hlater | hlater
    · obtain ⟨error, herror, rfl⟩ := List.mem_map.mp hlater
      exact hsecond.line_mem error herror
    · exact hsecond.linesAhead_suffix.subset hlater

end Walks

/-! ## Token lists -/

namespace Cursor

/-- Of any token list, the tokens before the first end token are read, or all if there is none. -/
lemma start_cases (tokens : List Token) :
    start tokens = ⟨tokens, Token.lastLine tokens⟩ ∨
      ∃ before e after, tokens = before ++ e :: after ∧ start tokens = ⟨before, e.line⟩ := by
  by_cases h : ∀ t ∈ tokens, t.kind ≠ .eof
  · exact .inl (start_of_not_ended h)
  · obtain ⟨e, hfind⟩ : ∃ e, tokens.find? (fun t => t.kind == .eof) = some e := by
      rw [← Option.isSome_iff_exists, List.find?_isSome]
      simpa using h
    obtain ⟨hends, before, after, rfl, hbefore⟩ := List.find?_eq_some_iff_append.mp hfind
    refine .inr ⟨before, e, after, rfl, start_of_ended (fun t ht => ?_) (beq_iff_eq.mp hends) after⟩
    simpa using hbefore t ht

variable {tokens : List Token}

/-- If the lines of the tokens never decrease, the lines ahead do not either: the input ends on the
line of the end token or on that of the last one. -/
lemma linesAhead_start_ordered (h : (tokens.map Token.line).Pairwise (· ≤ ·)) :
    (start tokens).linesAhead.Pairwise (· ≤ ·) := by
  rcases start_cases tokens with heq | ⟨before, e, after, rfl, heq⟩
  · rw [heq, linesAhead, Token.lastLine]
    rcases List.eq_nil_or_concat tokens with rfl | ⟨before, last, rfl⟩
    · exact List.pairwise_singleton _ _
    · rw [List.concat_eq_append, List.map_append] at h
      have hlast := (List.pairwise_append.mp h).2.2
      simp only [List.concat_eq_append, List.getLast?_append, List.map_append]
      refine List.pairwise_append.mpr ⟨h, List.pairwise_singleton _ _, ?_⟩
      intro line hline n hn
      rw [List.mem_singleton.mp hn]
      rcases List.mem_append.mp hline with hline | hline
      · exact hlast line hline _ List.mem_cons_self
      · rw [List.mem_singleton.mp hline]
        exact Nat.le_refl _
  · rw [heq, linesAhead]
    have hsplit : (before ++ e :: after).map Token.line =
        (before.map Token.line ++ [e.line]) ++ after.map Token.line := by simp
    rw [hsplit] at h
    exact (List.pairwise_append.mp h).1

/-- The lines ahead are lines of tokens, unless there are none. -/
lemma exists_of_mem_linesAhead_start (hne : tokens ≠ []) {n : Nat}
    (hn : n ∈ (start tokens).linesAhead) : ∃ t ∈ tokens, t.line = n := by
  rw [mem_linesAhead] at hn
  rcases start_cases tokens with heq | ⟨before, e, after, rfl, heq⟩
  · rw [heq] at hn
    rcases hn with hn | rfl
    · exact hn
    · refine ⟨tokens.getLast hne, List.getLast_mem hne, ?_⟩
      rw [Token.lastLine, List.getLast?_eq_some_getLast hne]
      rfl
  · rw [heq] at hn
    rcases hn with ⟨t, ht, rfl⟩ | rfl
    · exact ⟨t, List.mem_append_left _ ht, rfl⟩
    · exact ⟨e, by simp, rfl⟩

end Cursor

/-- Every report on a token list names the line of one of its tokens. An empty list has none. -/
lemma exists_of_mem_parseTokens {tokens : List Token} {error : ParseError}
    (h : error ∈ (parseTokens tokens).2) : ∃ t ∈ tokens, t.line = error.line := by
  have hne : tokens ≠ [] := by
    rintro rfl
    exact List.not_mem_nil h
  exact Cursor.exists_of_mem_linesAhead_start hne
    ((Parser.walking_program (Cursor.start tokens)).line_mem error h)

/-- The lines of the reports on a token list never decrease if the lines of the tokens do not. -/
lemma parseTokens_lines_ordered {tokens : List Token}
    (h : (tokens.map Token.line).Pairwise (· ≤ ·)) :
    ((parseTokens tokens).2.map ParseError.line).Pairwise (· ≤ ·) := by
  have hwalk := Parser.walking_program (Cursor.start tokens)
  exact (List.pairwise_append.mp
    (hwalk.lines_ordered (Cursor.linesAhead_start_ordered h))).1

/-! ## Sources -/

/-- **What is found on lines is in the order of the lines**, if what is found on each of them is in
order. -/
lemma Text.pairwise_onLines {α β : Type} {f : Nat → β → List α} {number : α → Nat}
    {R : α → α → Prop} (hf : ∀ m line, ∀ a ∈ f m line, number a = m)
    (hline : ∀ m line, (f m line).Pairwise R) (hlater : ∀ {a b}, number a < number b → R a b)
    (n : Nat) (lines : List β) : (Text.onLines f n lines).Pairwise R := by
  induction lines generalizing n with
  | nil => exact .nil
  | cons line later ih =>
    refine List.pairwise_append.mpr ⟨hline n line, ih (n + 1), fun a ha b hb => hlater ?_⟩
    obtain ⟨m, line', hle, -, hb⟩ := Text.mem_onLines hb
    rw [hf n line a ha, hf m line' b hb]
    omega

namespace Lexed

variable {source : String}

/-- The tokens of a source stand on its lines, and its end one line further down. -/
lemma line_mem_of_mem_tokens {t : Token} (ht : t ∈ (ofSource source).tokens) :
    1 ≤ t.line ∧ t.line ≤ (Text.lines source.toList).length + 1 := by
  rw [tokens_ofSource, List.mem_append] at ht
  rcases ht with ht | ht
  · obtain ⟨m, line, hle, hlt, ht⟩ := Text.mem_onLines ht
    rw [Token.line_of_mem_ofLine ht]
    omega
  · rw [List.mem_singleton.mp ht, Token.endOfInput]
    dsimp only
    omega

/-- The lines of the tokens of a source never decrease. -/
lemma tokens_lines_ordered (source : String) :
    ((ofSource source).tokens.map Token.line).Pairwise (· ≤ ·) := by
  rw [List.pairwise_map, tokens_ofSource]
  refine List.pairwise_append.mpr ⟨?_, List.pairwise_singleton _ _, fun t ht e he => ?_⟩
  · refine Text.pairwise_onLines (fun _ _ _ => Token.line_of_mem_ofLine) (fun m line => ?_)
      Nat.le_of_lt 1 _
    refine List.pairwise_of_forall_mem_list fun t ht u hu => ?_
    rw [Token.line_of_mem_ofLine ht, Token.line_of_mem_ofLine hu]
  · obtain ⟨m, line, -, hlt, ht⟩ := Text.mem_onLines ht
    rw [Token.line_of_mem_ofLine ht, List.mem_singleton.mp he, Token.endOfInput]
    exact Nat.le_of_lt hlt

/-- A line has at most one report of its own. -/
lemma errors_lines_increasing (source : String) :
    ((ofSource source).errors.map ParseError.line).Pairwise (· < ·) := by
  rw [List.pairwise_map, errors_ofSource]
  refine Text.pairwise_onLines (fun _ _ _ => ParseError.line_of_mem_ofLine) (fun m line => ?_)
    (fun h => h) 1 _
  rw [ParseError.ofLine]
  split
  · exact List.pairwise_singleton _ _
  · exact .nil

/-- The reports on the lines of a source name lines that it has. -/
lemma line_mem_of_mem_errors {error : ParseError} (h : error ∈ (ofSource source).errors) :
    1 ≤ error.line ∧ error.line ≤ (Text.lines source.toList).length := by
  rw [errors_ofSource] at h
  obtain ⟨m, line, hle, hlt, h⟩ := Text.mem_onLines h
  rw [ParseError.line_of_mem_ofLine h]
  omega

end Lexed

/-- **Reports come in order and name lines that exist.**

* The reports on a source with `n` lines are those on its lines, by increasing line between `1` and
  `n`, and then those on its statements, by non-decreasing line between `1` and `n + 1`.
* Where the lines of some tokens never decrease, the lines of the reports on them do not either; and
  each report names the line of one of the tokens.

**Proof sketch.** The second part reads the lines of the reports off what a parser can do. For the
first, the tokens of a source come by line, with the end on line `n + 1`. -/
theorem Script.reports_in_order :
    (∀ id source : String,
      let n := (Text.lines source.toList).length
      let onLines := (Lexed.ofSource source).errors
      let onStatements := (parseTokens (Lexed.ofSource source).tokens).2
      (Script.load id source).errors = onLines ++ onStatements ∧
        (onLines.map ParseError.line).Pairwise (· < ·) ∧
        (∀ error ∈ onLines, 1 ≤ error.line ∧ error.line ≤ n) ∧
        (onStatements.map ParseError.line).Pairwise (· ≤ ·) ∧
        ∀ error ∈ onStatements, 1 ≤ error.line ∧ error.line ≤ n + 1) ∧
      ∀ tokens : List Token, (tokens.map Token.line).Pairwise (· ≤ ·) →
        ((parseTokens tokens).2.map ParseError.line).Pairwise (· ≤ ·) ∧
          ∀ error ∈ (parseTokens tokens).2, ∃ t ∈ tokens, t.line = error.line := by
  refine ⟨fun id source => ?_, fun tokens hlines => ?_⟩
  · refine ⟨rfl, Lexed.errors_lines_increasing source, fun _ => Lexed.line_mem_of_mem_errors,
      parseTokens_lines_ordered (Lexed.tokens_lines_ordered source), fun error herror => ?_⟩
    obtain ⟨t, ht, hline⟩ := exists_of_mem_parseTokens herror
    rw [← hline]
    exact Lexed.line_mem_of_mem_tokens ht
  · exact ⟨parseTokens_lines_ordered hlines, fun _ => exists_of_mem_parseTokens⟩

/-- A branch without its condition, with an assignment without its value, that is not closed before
an end token; what stands behind that is not looked at. -/
theorem Script.reports_in_order_broken :
    let tokens : List Token := [⟨.keyword, "if", 1⟩, ⟨.symbol, ")", 3⟩, ⟨.identifier, "x", 3⟩,
      ⟨.symbol, "=", 3⟩, ⟨.eof, "", 6⟩, ⟨.symbol, ")", 7⟩]
    (tokens.map Token.line).Pairwise (· ≤ ·) ∧
      (parseTokens tokens).2.map ParseError.line = [3, 3, 3, 6, 6, 6] ∧
      [3, 3, 3, 6, 6, 6].Pairwise (· ≤ ·) ∧
      ∀ error ∈ (parseTokens tokens).2, ∃ t ∈ tokens, t.line = error.line := by
  intro tokens
  have hlines : (tokens.map Token.line).Pairwise (· ≤ ·) := by decide
  obtain ⟨hordered, hfound⟩ := Script.reports_in_order.2 tokens hlines
  have hreports : (parseTokens tokens).2.map ParseError.line = [3, 3, 3, 6, 6, 6] := by decide
  exact ⟨hlines, hreports, hreports ▸ hordered, hfound⟩

end DialogueScript
