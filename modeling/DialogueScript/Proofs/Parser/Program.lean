import DialogueScript.Proofs.Parser.Statement
import DialogueScript.Script.Basic

set_option autoImplicit false

/-!
# Parsing programs

The parser reports nothing exactly on the token lists that the grammar derives, as long as blocks
and calls do not lie too deep inside each other; what it returns is then the tree of the
derivation, in which every name and every literal among the tokens has its place.

## Main results

* `DialogueScript.Parser.program_accepts_iff` — runs over explicit tokens.
* `DialogueScript.parseTokens_clean_iff` — whole token lists.
-/

namespace DialogueScript

open Grammar

namespace Parser

/-- **Programs**: a run over some tokens is without a report exactly if the grammar derives its
result from the tokens and the result does not nest too deep. -/
theorem program_accepts_iff {ts : List Token} {n : Nat} {statements : List Stmt} {c' : Cursor} :
    Accepts program ⟨ts, n⟩ statements c' ↔
      c' = ⟨[], n⟩ ∧ Program ts statements ∧ Stmt.listNesting statements ≤ nestingLimit := by
  rw [program, accepts_manyUntil_iff (recognizes_statement nestingLimit) LineWithin.takes
    (fun _ _ => rfl)]
  simp only [many_line_iff, Bool.false_eq_true, or_false, Program]
  constructor
  · rintro ⟨_, rfl, h, rfl⟩
    exact ⟨rfl, h⟩
  · rintro ⟨rfl, h⟩
    exact ⟨[], rfl, h, rfl⟩

end Parser

/-- The tokens in front of the first end token; all of them if there is none. -/
def Token.beforeEnd (tokens : List Token) : List Token :=
  tokens.takeWhile fun token => token.kind != .eof

/-- Parsing begins in front of all tokens if only the last of them is the end of the input. -/
lemma Cursor.start_append_endOfInput {ts : List Token} (h : ∀ t ∈ ts, t.kind ≠ .eof) (m : Nat) :
    Cursor.start (ts ++ [Token.endOfInput m]) = ⟨ts, m⟩ := by
  have hfind : ts.find? (fun t => t.kind == .eof) = none := by simpa using h
  have hkinds : ∀ t ∈ ts, (t.kind != .eof) = true := by simpa using h
  simp only [start, endLineOf, List.find?_append, hfind, List.takeWhile_append_of_pos hkinds]
  simp [Token.endOfInput]

/-- A token list gives some statements and no report exactly if the grammar derives them from the
tokens in front of the first end token and they do not nest too deep. -/
lemma parseTokens_eq_iff {tokens : List Token} {statements : List Stmt} :
    parseTokens tokens = (statements, []) ↔
      Program (Token.beforeEnd tokens) statements ∧
        Stmt.listNesting statements ≤ Parser.nestingLimit := by
  have hrun : parseTokens tokens = (statements, []) ↔
      ∃ c', Parser.Accepts Parser.program (Cursor.start tokens) statements c' := by
    simp only [parseTokens, Prod.mk.injEq, Parser.Accepts]
    constructor
    · rintro ⟨hvalue, herrors⟩
      exact ⟨(Parser.program (Cursor.start tokens)).rest, by rw [← hvalue, ← herrors]⟩
    · rintro ⟨c', h⟩
      rw [h]
      exact ⟨rfl, rfl⟩
  rw [hrun, Cursor.start]
  simp only [Parser.program_accepts_iff, exists_eq_left, Token.beforeEnd]

/-- **The parser accepts exactly the grammar.** A token list is parsed without a report if and only
if the tokens in front of the first end token derive from the grammar and do not nest too deep;
the statements returned are then the tree of the derivation, and the names and literals in them
are those among the tokens, in the same order.

**Proof sketch.** `parseTokens_eq_iff` relates runs and derivations. A run without a report returns
some tree, so there is a derivation for it, and a derivation accounts for every name and literal
(`Block.words_eq`). -/
theorem parseTokens_clean_iff (tokens : List Token) :
    ((parseTokens tokens).2 = [] ↔ ∃ statements, Program (Token.beforeEnd tokens) statements ∧
        Stmt.listNesting statements ≤ Parser.nestingLimit) ∧
      (∀ statements, parseTokens tokens = (statements, []) ↔
        Program (Token.beforeEnd tokens) statements ∧
          Stmt.listNesting statements ≤ Parser.nestingLimit) ∧
      ((parseTokens tokens).2 = [] →
        Token.words (Token.beforeEnd tokens) = Stmt.listWords (parseTokens tokens).1) := by
  have hclean : (parseTokens tokens).2 = [] →
      parseTokens tokens = ((parseTokens tokens).1, []) := by
    intro h
    rw [← h]
  refine ⟨⟨fun h => ⟨_, parseTokens_eq_iff.mp (hclean h)⟩, ?_⟩, fun _ => parseTokens_eq_iff, ?_⟩
  · rintro ⟨statements, h⟩
    rw [parseTokens_eq_iff.mpr h]
  · intro h
    obtain ⟨hprogram, -⟩ := parseTokens_eq_iff.mp (hclean h)
    rw [hprogram.words_eq]
    simp [Token.words]

/-- The tolerances of the grammar in one list: a comma behind the last parameter, declared names
without a comma between them, a newline token, a `return` without a value because the next token
stands on another line, and a closing word in capitals. -/
theorem parseTokens_clean_tolerant :
    let tokens : List Token := [⟨.keyword, "code", 1⟩, ⟨.identifier, "f", 1⟩, ⟨.symbol, "(", 1⟩,
      ⟨.identifier, "a", 1⟩, ⟨.symbol, ",", 1⟩, ⟨.symbol, ")", 1⟩, ⟨.keyword, "local", 2⟩,
      ⟨.identifier, "b", 2⟩, ⟨.identifier, "c", 2⟩, ⟨.newline, "", 2⟩, ⟨.keyword, "return", 3⟩,
      ⟨.keyword, "ENDCODE", 4⟩, ⟨.eof, "", 5⟩, ⟨.symbol, "(", 6⟩]
    (parseTokens tokens).2 = [] ∧
      Token.words (Token.beforeEnd tokens) = Stmt.listWords (parseTokens tokens).1 := by
  intro tokens
  have hclean : (parseTokens tokens).2 = [] := by decide
  exact ⟨hclean, (parseTokens_clean_iff tokens).2.2 hclean⟩

end DialogueScript
