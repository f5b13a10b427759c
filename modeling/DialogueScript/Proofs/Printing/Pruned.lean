import DialogueScript.Proofs.Parser.Cutting
import DialogueScript.Proofs.Printing.RoundTrip

set_option autoImplicit false

/-!
# Loading programs that nest too deep

Loading the printed text of a program that nests deeper than a parser follows it gives the program
pruned to the limit. Nothing else is lost: whatever stands behind a block or a call that was cut is
still there, and the only reports are those on the cuts.

The run follows the tree that was printed. With room, a statement is read form by form, and its
blocks with one place less; without room, the tokens of a block are passed over up to the word that
ends it, because the grammar derives the block from them however deep it nests.

## Main results

* `DialogueScript.Parser.cuts_listTokens` — runs over printed statements.
* `DialogueScript.Script.load_listSource_pruned` — loading what was printed.
-/

namespace DialogueScript

open Grammar Token

namespace Parser

variable {n m room : Nat} {rest : List Token}

/-- The tokens of some lexemes stand on their line. -/
lemma onLine_before (lexemes : List Lexeme) : OnLine n (before n lexemes rest) rest := by
  refine ⟨lexemes.map (ofLexeme n), rfl, fun t ht => ?_⟩
  obtain ⟨l, -, rfl⟩ := List.mem_map.mp ht
  exact ofLexeme_line

/-- A printed expression that stands directly in a statement is pruned to the room. -/
lemma cuts_before {value : Expr} (h : value.isPrintable = true)
    (hfree : room = 0 → value.nesting = 0) (hrest : ∀ t ∈ rest.head?, t.isSymbol "(" = false) :
    Cuts (expression room) ⟨before n value.lexemes rest, m⟩ (some (value.prune room))
      (value.cuts room) ⟨rest, m⟩ :=
  (expression_before value h n rest hrest).cuts_operand (onLine_before _) hfree

/-- A printed condition is pruned to the room. -/
lemma cuts_condition_before {guard : Condition} (h : guard.isPrintable = true)
    (hfree : ∀ e ∈ guard.operands, room = 0 → e.nesting = 0)
    (hrest : ∀ t ∈ rest.head?, t.isSymbol "(" = false) :
    Cuts (condition (expression room)) ⟨before n guard.lexemes rest, m⟩ (guard.prune room)
      (guard.cuts room) ⟨rest, m⟩ :=
  (comparison_before h hrest).cuts (onLine_before _) hfree

/-- The head of a declaration, behind which no parenthesis opens, is read as it is. -/
lemma exists_accepts_parameterList {name : String} {params : List String}
    (hname : Text.isName name = true) (hparams : params.all Text.isName = true) (n m : Nat)
    (hrest : ∀ t ∈ rest.head?, t.isSymbol "(" = false) :
    ∃ ts, (Line.head name params).tokens n ++ rest =
      ⟨.keyword, "code", n⟩ :: ⟨.identifier, name, n⟩ :: ts ∧
        Accepts parameterList ⟨ts, m⟩ params ⟨rest, m⟩ := by
  obtain ⟨ts, htokens, hderived⟩ := exists_parameters hname hparams n rest
  refine ⟨ts, htokens, (recognizes_parameterList _ _ _ _).mpr ⟨rest, rfl, hderived, ?_⟩⟩
  rintro rfl
  exact hrest

/-! ## Repetitions of statements -/

/-- A repetition of statements that stops at nothing but a word at which a block may end. -/
def StopsAtBoundary (stop : Cursor → Bool) : Prop :=
  ∀ c, stop c = true → c.peek.isKeywordIn boundaryWords = true

/-- A repetition that stops at some of the words at which a block may end stops at nothing else. -/
lemma stopsAtBoundary_isKeywordIn {boundaries : List String} (h : boundaries ⊆ boundaryWords) :
    StopsAtBoundary fun c => c.peek.isKeywordIn boundaries := by
  intro c hc
  obtain ⟨word, hword, hc⟩ := Token.isKeywordIn_iff.mp hc
  exact Token.isKeywordIn_iff.mpr ⟨word, h hword, hc⟩

variable {stop : Cursor → Bool} {s : Stmt} {as : List Stmt} {k k' : Nat} {c' : Cursor}

/-- What stands directly in a block is not where its repetition stops. -/
lemma StopsAtBoundary.eq_false (hstop : StopsAtBoundary stop) {ts : List Token} {r : Option Stmt}
    (h : LineWithin room ts r rest) : stop ⟨ts, m⟩ = false := by
  cases hs : stop ⟨ts, m⟩ with
  | false => rfl
  | true => simpa [hstop _ hs] using h.not_isKeywordIn m (List.Subset.refl boundaryWords)

/-- A block with a statement in it begins with a newline token or a statement. -/
lemma exists_lineWithin {ts : List Token} {body : List Stmt}
    (h : Block Statement ts (s :: body) rest) : ∃ room r mid, LineWithin room ts r mid := by
  cases h with
  | newline ht _ => exact ⟨0, none, _, .inl ⟨_, rfl, ht, rfl⟩⟩
  | cons hstmt _ => exact ⟨s.nesting, some s, _, .inr ⟨s, rfl, hstmt, Nat.le_refl _⟩⟩

/-- A printed statement that fits is read as it is. -/
lemma cuts_lines_of_fits (hs : s.isPrintable = true) (hroom : s.nesting ≤ room)
    (hrest : Follows (n + s.lines.length) rest) (hstop : StopsAtBoundary stop)
    (hlater : Cuts (manyUntil stop (statement room)) ⟨rest, m⟩ as k c') :
    Cuts (manyUntil stop (statement room)) ⟨Line.listTokens n s.lines ++ rest, m⟩ (s :: as) k
      c' := by
  have hmany : (LineWithin room).Many (Line.listTokens n s.lines ++ rest) [s] rest :=
    many_line_iff.mpr ⟨block_lines s hs n rest hrest .done, Nat.max_le.mpr ⟨hroom, Nat.zero_le _⟩⟩
  have hrun := manyUntil_of_many (n := m) (recognizes_statement room) (stepping_statement room)
    LineWithin.takes (fun _ h => hstop.eq_false h) hmany
  exact ⟨by rw [hrun, hlater.value]; rfl, by rw [hrun, hlater.faults], by rw [hrun, hlater.rest]⟩

/-- A printed statement is one round of a repetition. -/
lemma cuts_lines_item (hs : s.isPrintable = true) (hrest : Follows (n + s.lines.length) rest)
    (hstop : StopsAtBoundary stop) {s' : Stmt}
    (hitem : Cuts (statement room) ⟨Line.listTokens n s.lines ++ rest, m⟩ (some s') k ⟨rest, m⟩)
    (hlater : Cuts (manyUntil stop (statement room)) ⟨rest, m⟩ as k' c') :
    Cuts (manyUntil stop (statement room)) ⟨Line.listTokens n s.lines ++ rest, m⟩ (s' :: as)
      (k + k') c' := by
  have hgo : ((⟨Line.listTokens n s.lines ++ rest, m⟩ : Cursor).atEnd ||
      stop ⟨Line.listTokens n s.lines ++ rest, m⟩) = false := by
    obtain ⟨room, r, mid, hline⟩ := exists_lineWithin (block_lines s hs n rest hrest .done)
    have hne : Line.listTokens n s.lines ++ rest ≠ [] := LineWithin.takes.ne_nil hline
    rw [Cursor.atEnd_mk, hstop.eq_false hline, Bool.or_false]
    simpa using hne
  exact cuts_manyUntil_item (stepping_statement room) hgo hitem hlater

/-- A printed block is pruned to the room, given that its statements are if there is room. -/
lemma cuts_block {boundaries : List String} (hboundaries : boundaries ⊆ boundaryWords)
    {body : List Stmt} (hbody : Stmt.listIsPrintable body = true) {word : String} {line : Nat}
    (hword : word ∈ boundaries)
    (hfollows : Follows (n + (Stmt.listLines body).length) (⟨.keyword, word, line⟩ :: rest))
    (hlist : ∀ r, room = r + 1 → ∀ {stop : Cursor → Bool}, StopsAtBoundary stop →
      ((⟨⟨.keyword, word, line⟩ :: rest, m⟩ : Cursor).atEnd ||
        stop ⟨⟨.keyword, word, line⟩ :: rest, m⟩) = true →
      Cuts (manyUntil stop (statement r))
        ⟨Line.listTokens n (Stmt.listLines body) ++ ⟨.keyword, word, line⟩ :: rest, m⟩
        (Stmt.blockPrune (r + 1) body) (Stmt.blockCuts (r + 1) body)
        ⟨⟨.keyword, word, line⟩ :: rest, m⟩) :
    Cuts (block room boundaries)
      ⟨Line.listTokens n (Stmt.listLines body) ++ ⟨.keyword, word, line⟩ :: rest, m⟩
      (Stmt.blockPrune room body) (Stmt.blockCuts room body)
      ⟨⟨.keyword, word, line⟩ :: rest, m⟩ := by
  have hclosing : (⟨.keyword, word, line⟩ : Token).isKeywordIn boundaries = true :=
    Token.isKeywordIn_iff.mpr ⟨word, hword, isKeyword_self⟩
  cases room with
  | zero =>
    have hderived := block_listTokens body hbody n _ hfollows
    rw [Stmt.blockPrune, Stmt.blockCuts]
    exact cuts_blockTooDeep hboundaries hderived hclosing
  | succ room => exact hlist room rfl (stopsAtBoundary_isKeywordIn hboundaries) hclosing

/-- Behind the block of a case stands the next case or the end of the `switch`. -/
lemma exists_cases_eq_cons (cases : List CaseBlock) (n : Nat) (rest : List Token) :
    ∃ word ts, Line.listTokens n (CaseBlock.listLines cases) ++
        ⟨.keyword, "endswitch", n + (CaseBlock.listLines cases).length⟩ :: rest =
      ⟨.keyword, word, n⟩ :: ts ∧ word ∈ ["case", "endswitch"] := by
  cases cases with
  | nil => exact ⟨"endswitch", rest, rfl, by decide⟩
  | cons block later =>
    obtain ⟨value, body⟩ := block
    rw [CaseBlock.listLines, CaseBlock.lines, List.cons_append, Line.listTokens,
      List.append_assoc, operand_tokens_append (by decide)]
    exact ⟨"case", _, rfl, by decide⟩

/-! ## Printed statements -/

mutual

/-- A printed statement is pruned to the room, and what follows is read as it would be alone. -/
lemma cuts_lines : (s : Stmt) → s.isPrintable = true → (room : Nat) →
    Stmt.NoCallsAtDepth room [s] → (n m : Nat) → (rest : List Token) →
    Follows (n + s.lines.length) rest → {stop : Cursor → Bool} → StopsAtBoundary stop →
    {as : List Stmt} → {k : Nat} → {c' : Cursor} →
    Cuts (manyUntil stop (statement room)) ⟨rest, m⟩ as k c' →
    Cuts (manyUntil stop (statement room)) ⟨Line.listTokens n s.lines ++ rest, m⟩
      (s.prune room :: as) (s.cuts room + k) c'
  | .assign name value, h, room, hfree, n, m, rest, hrest, _, hstop, _, _, _, hlater => by
    refine cuts_lines_item h hrest hstop ?_ hlater
    rw [Stmt.isPrintable, Bool.and_eq_true] at h
    rw [statement_eq, Stmt.lines, listTokens_singleton, Line.tokens, Line.lexemes,
      List.singleton_append, List.singleton_append, ofLexemes_name_append h.1, before_symbol]
    exact cuts_assign rfl rfl
      (cuts_before h.2 (hfree.operand List.mem_cons_self) hrest.not_opening)
  | .call name args, h, room, hfree, n, m, rest, hrest, _, hstop, _, _, _, hlater => by
    refine cuts_lines_item h hrest hstop ?_ hlater
    rw [Stmt.isPrintable, Bool.and_eq_true] at h
    have hargs := separated_before args h.2 n rest
    rw [statement_eq, Stmt.lines, listTokens_singleton, Line.tokens, Line.lexemes,
      List.singleton_append, ofLexemes_name_append h.1, before_inParentheses]
    exact cuts_call rfl rfl (cuts_fuelled (Expression.separated_cuts_operands hargs
      (onLine_before _) rfl (fun e he => hfree.operand he) (Nat.le_refl _))) rfl
  | .declare name params body, h, room, hfree, n, m, rest, hrest, _, hstop, _, _, _, hlater => by
    refine cuts_lines_item h hrest hstop ?_ hlater
    rw [Stmt.isPrintable, Bool.and_eq_true, Bool.and_eq_true] at h
    rw [statement_eq, Stmt.lines, List.cons_append, Line.listTokens, List.append_assoc,
      listTokens_reserved_append (by decide)]
    have hfollows : Follows (n + 1) (Line.listTokens (n + 1) (Stmt.listLines body) ++
        ⟨.keyword, "endcode", n + 1 + (Stmt.listLines body).length⟩ :: rest) :=
      follows_listTokens follows_keyword
    obtain ⟨ts, htokens, hparams⟩ :=
      exists_accepts_parameterList h.1.1 h.1.2 n m hfollows.not_opening
    rw [htokens]
    exact cuts_declare ⟨rfl, rfl⟩ rfl hparams
      (cuts_block (by decide) h.2 (by decide) follows_keyword fun r hr =>
        cuts_listTokens body h.2 r (hfree.child hr (by simp [Stmt.childBlocks])) _ m _
          follows_keyword) isKeyword_self
  | .globals names, h, room, _, n, m, rest, hrest, _, hstop, _, k, _, hlater => by
    rw [Stmt.cuts, Nat.zero_add]
    exact cuts_lines_of_fits h (Nat.zero_le _) hrest hstop hlater
  | .locals names, h, room, _, n, m, rest, hrest, _, hstop, _, k, _, hlater => by
    rw [Stmt.cuts, Nat.zero_add]
    exact cuts_lines_of_fits h (Nat.zero_le _) hrest hstop hlater
  | .branch condition thenBody [], h, room, hfree, n, m, rest, hrest, _, hstop, _, _, _,
      hlater => by
    refine cuts_lines_item h hrest hstop ?_ hlater
    rw [Stmt.isPrintable, Bool.and_eq_true, Bool.and_eq_true] at h
    have hcuts : (Stmt.branch condition thenBody []).cuts room =
        condition.cuts room + Stmt.blockCuts room thenBody := by
      rw [Stmt.cuts, List.isEmpty_nil, if_pos rfl, Nat.add_zero]
    rw [statement_eq, Stmt.lines, List.cons_append, Line.listTokens, List.append_assoc,
      listTokens_reserved_append (by decide), guard_tokens_append (by decide), Stmt.prune,
      Stmt.blockPrune_nil, hcuts]
    exact cuts_branch ⟨rfl, rfl⟩
      (cuts_condition_before h.1.1 (fun e he => hfree.operand he)
        (follows_listTokens follows_keyword).not_opening)
      (cuts_block (by decide) h.1.2 (by decide) follows_keyword fun r hr =>
        cuts_listTokens thenBody h.1.2 r (hfree.child hr (by simp [Stmt.childBlocks])) _ m _
          follows_keyword) isKeyword_self
  | .branch condition thenBody (first :: later), h, room, hfree, n, m, rest, hrest, _, hstop, _, _,
      _, hlater => by
    refine cuts_lines_item h hrest hstop ?_ hlater
    rw [Stmt.isPrintable, Bool.and_eq_true, Bool.and_eq_true] at h
    have hlines : (Stmt.branch condition thenBody (first :: later)).lines =
        .guard "if" condition :: (Stmt.listLines thenBody ++ [.reserved "else"] ++
          (Stmt.listLines (first :: later) ++ [.reserved "endif"])) := by
      simp [Stmt.lines]
    have hcuts : (Stmt.branch condition thenBody (first :: later)).cuts room =
        condition.cuts room + (Stmt.blockCuts room thenBody +
          Stmt.blockCuts room (first :: later)) := by
      rw [Stmt.cuts, List.isEmpty_cons, if_neg Bool.false_ne_true, Nat.add_assoc]
    rw [statement_eq, hlines, hcuts, Line.listTokens, listTokens_append, List.append_assoc,
      List.append_assoc, listTokens_reserved_append (by decide),
      listTokens_reserved_append (by decide), guard_tokens_append (by decide)]
    exact cuts_branchElse ⟨rfl, rfl⟩
      (cuts_condition_before h.1.1 (fun e he => hfree.operand he)
        (follows_listTokens follows_keyword).not_opening)
      (cuts_block (by decide) h.1.2 (by decide) follows_keyword fun r hr =>
        cuts_listTokens thenBody h.1.2 r (hfree.child hr (by simp [Stmt.childBlocks])) _ m _
          follows_keyword) isKeyword_self
      (cuts_block (by decide) h.2 (by decide) follows_keyword fun r hr =>
        cuts_listTokens (first :: later) h.2 r (hfree.child hr (by simp [Stmt.childBlocks])) _ m _
          follows_keyword) isKeyword_self
  | .select selector cases, h, room, hfree, n, m, rest, hrest, _, hstop, _, _, _, hlater => by
    refine cuts_lines_item h hrest hstop ?_ hlater
    rw [Stmt.isPrintable, Bool.and_eq_true] at h
    rw [statement_eq, Stmt.lines, List.cons_append, Line.listTokens, List.append_assoc,
      listTokens_reserved_append (by decide), operand_tokens_append (by decide)]
    have hvalues : ∀ block ∈ cases, room = 0 → block.value.nesting = 0 := fun block hblock =>
      hfree.operand (List.mem_cons_of_mem _ (List.mem_map_of_mem hblock))
    have hbodies : ∀ r, room = r + 1 → ∀ block ∈ cases, Stmt.NoCallsAtDepth r block.body :=
      fun r hr block hblock => hfree.child hr (List.mem_map_of_mem hblock)
    exact cuts_select ⟨rfl, rfl⟩
      (cuts_before h.1 (hfree.operand List.mem_cons_self)
        (follows_listTokens follows_keyword).not_opening)
      (cuts_listCases cases h.2 room hvalues hbodies (n + 1) m rest) isKeyword_self
  | .loop condition body, h, room, hfree, n, m, rest, hrest, _, hstop, _, _, _, hlater => by
    refine cuts_lines_item h hrest hstop ?_ hlater
    rw [Stmt.isPrintable, Bool.and_eq_true] at h
    rw [statement_eq, Stmt.lines, List.cons_append, Line.listTokens, List.append_assoc,
      listTokens_reserved_append (by decide), guard_tokens_append (by decide)]
    exact cuts_loop ⟨rfl, rfl⟩
      (cuts_condition_before h.1 (fun e he => hfree.operand he)
        (follows_listTokens follows_keyword).not_opening)
      (cuts_block (by decide) h.2 (by decide) follows_keyword fun r hr =>
        cuts_listTokens body h.2 r (hfree.child hr (by simp [Stmt.childBlocks])) _ m _
          follows_keyword) isKeyword_self
  | .ret none, h, room, _, n, m, rest, hrest, _, hstop, _, k, _, hlater => by
    rw [Stmt.cuts, Option.toList_none, Expr.listCuts, Nat.zero_add]
    exact cuts_lines_of_fits h (Nat.zero_le _) hrest hstop hlater
  | .ret (some value), h, room, hfree, n, m, rest, hrest, _, hstop, _, _, _, hlater => by
    refine cuts_lines_item h hrest hstop ?_ hlater
    rw [Stmt.isPrintable] at h
    have hvalue := cuts_before (n := n) (m := m) h (hfree.operand List.mem_cons_self)
      hrest.not_opening
    rw [statement_eq, Stmt.lines, listTokens_singleton, operand_tokens_append (by decide)]
    cases hlexemes : value.lexemes with
    | nil =>
      have hlt := (expression_before value h n rest hrest.not_opening).length_lt
      simp [hlexemes, before] at hlt
    | cons l ls =>
      rw [hlexemes] at hvalue
      exact cuts_ret ⟨rfl, rfl⟩ ofLexeme_line hvalue
  | .exitCode, h, room, _, n, m, rest, hrest, _, hstop, _, k, _, hlater => by
    rw [Stmt.cuts, Nat.zero_add]
    exact cuts_lines_of_fits h (Nat.zero_le _) hrest hstop hlater

/-- **Printed statements are pruned to the room.** -/
lemma cuts_listTokens : (body : List Stmt) → Stmt.listIsPrintable body = true → (room : Nat) →
    Stmt.NoCallsAtDepth room body → (n m : Nat) → (rest : List Token) →
    Follows (n + (Stmt.listLines body).length) rest → {stop : Cursor → Bool} →
    StopsAtBoundary stop → ((⟨rest, m⟩ : Cursor).atEnd || stop ⟨rest, m⟩) = true →
    Cuts (manyUntil stop (statement room)) ⟨Line.listTokens n (Stmt.listLines body) ++ rest, m⟩
      (Stmt.blockPrune (room + 1) body) (Stmt.blockCuts (room + 1) body) ⟨rest, m⟩
  | [], _, _, _, _, _, _, _, _, _, hend => cuts_manyUntil_stop hend
  | s :: later, h, room, hfree, n, m, rest, hrest, _, hstop, hend => by
    rw [Stmt.listIsPrintable, Bool.and_eq_true] at h
    rw [Stmt.listLines, List.length_append, ← Nat.add_assoc] at hrest
    rw [Stmt.listLines, listTokens_append, List.append_assoc]
    exact cuts_lines s h.1 room (hfree.of_subset (by simp)) n m _ (follows_listTokens hrest) hstop
      (cuts_listTokens later h.2 room (hfree.of_subset (by simp)) _ m rest hrest hstop hend)

/-- Printed cases are pruned to the room. -/
lemma cuts_listCases : (cases : List CaseBlock) → CaseBlock.listIsPrintable cases = true →
    (room : Nat) → (∀ block ∈ cases, room = 0 → block.value.nesting = 0) →
    (∀ r, room = r + 1 → ∀ block ∈ cases, Stmt.NoCallsAtDepth r block.body) → (n m : Nat) →
    (rest : List Token) →
    Cuts (manyUntil (fun c => c.peek.isKeyword "endswitch")
        (switchItem (expression room) (block room)))
      ⟨Line.listTokens n (CaseBlock.listLines cases) ++
        ⟨.keyword, "endswitch", n + (CaseBlock.listLines cases).length⟩ :: rest, m⟩
      (CaseBlock.listPrune room cases) (CaseBlock.listCuts room cases)
      ⟨⟨.keyword, "endswitch", n + (CaseBlock.listLines cases).length⟩ :: rest, m⟩
  | [], _, _, _, _, _, _, _ => cuts_manyUntil_stop isKeyword_self
  | ⟨value, body⟩ :: later, h, room, hvalues, hbodies, n, m, rest => by
    rw [CaseBlock.listIsPrintable, CaseBlock.isPrintable, Bool.and_eq_true, Bool.and_eq_true] at h
    have hlast : n + (CaseBlock.listLines (⟨value, body⟩ :: later)).length =
        n + 1 + (Stmt.listLines body).length + (CaseBlock.listLines later).length := by
      rw [CaseBlock.listLines, CaseBlock.lines, List.cons_append, List.length_cons,
        List.length_append]
      omega
    have hlater := cuts_listCases later h.2 room
      (fun block hblock => hvalues block (List.mem_cons_of_mem _ hblock))
      (fun r hr block hblock => hbodies r hr block (List.mem_cons_of_mem _ hblock))
      (n + 1 + (Stmt.listLines body).length) m rest
    rw [hlast, CaseBlock.listLines, CaseBlock.lines, List.cons_append, Line.listTokens,
      listTokens_append, List.append_assoc, List.append_assoc, operand_tokens_append (by decide)]
    obtain ⟨word, ts, htokens, hword⟩ := exists_cases_eq_cons later
      (n + 1 + (Stmt.listLines body).length) rest
    rw [htokens] at hlater ⊢
    have hgo : (⟨.keyword, "case", n⟩ : Token).isKeyword "endswitch" = false :=
      Token.isKeyword_ne isKeyword_self (by decide)
    rw [CaseBlock.listPrune, CaseBlock.listCuts, CaseBlock.prune, CaseBlock.cuts]
    refine cuts_manyUntil_item (stepping_switchItem (walking_expression room) (walking_block room))
      ?_ (cuts_case isKeyword_self
        (cuts_before h.1.1 (hvalues _ List.mem_cons_self)
          (follows_listTokens follows_keyword).not_opening)
        (cuts_block (by decide) h.1.2 hword follows_keyword fun r hr =>
          cuts_listTokens body h.1.2 r (hbodies r hr _ List.mem_cons_self) _ m _
            follows_keyword)) hlater
    exact hgo

end

end Parser

/-! ## Whole programs -/

/-- **Loading a program that nests too deep prunes it and does nothing else.** Let a program have a
spelling, and let the statements that lie inside as many blocks as a parser follows have no call
expressions of their own. Then loading its source text gives the program pruned to the limit, and
the reports are one for each block and each call that was cut.

**Proof sketch.** The tokens of the text are those of its lines, without a report
(`Lexed.ofSource_listSource`), and over them the parser cuts what has no room
(`Parser.cuts_listTokens`). -/
theorem Script.load_listSource_pruned (id : String) (statements : List Stmt)
    (hprintable : Stmt.listIsPrintable statements = true)
    (hfree : Stmt.NoCallsAtDepth Parser.nestingLimit statements) :
    (Script.load id (Stmt.listSource statements)).statements =
        statements.map (Stmt.prune Parser.nestingLimit) ∧
      (Script.load id (Stmt.listSource statements)).errors.map ParseError.fault =
        List.replicate (statements.map (Stmt.cuts Parser.nestingLimit)).sum .nestingTooDeep := by
  have hkinds : ∀ t ∈ Line.listTokens 1 (Stmt.listLines statements), t.kind ≠ .eof :=
    fun _ => Line.kind_ne_eof_of_mem_listTokens
  have hstart := Cursor.start_append_endOfInput hkinds (1 + (Stmt.listLines statements).length)
  have hstop : Parser.StopsAtBoundary fun _ => false := by simp [Parser.StopsAtBoundary]
  have hrun := Parser.cuts_listTokens statements hprintable Parser.nestingLimit hfree 1
    (1 + (Stmt.listLines statements).length) [] (by simp [Follows]) hstop rfl
  rw [List.append_nil, ← hstart, Stmt.blockPrune_succ, Stmt.blockCuts_succ] at hrun
  simp only [Script.load, parseTokens, Lexed.ofSource_listSource hprintable, List.nil_append]
  exact ⟨hrun.value, hrun.faults⟩

set_option maxRecDepth 4000 in
/-- Loops inside each other up to the limit. In the last of them a branch loses both of its blocks
and a `switch` those of its two cases. Behind the loops stand as many calls inside each other as
there is room for, with three arguments in the last of them, of which two are calls. -/
theorem Script.load_listSource_pruned_deep :
    let guard : Condition := .equals (.var "a") (.number "1")
    let inner : List Stmt :=
      [.branch guard [.loop guard [.exitCode]] [.ret none],
        .select (.var "a") [⟨.number "1", [.branch guard [] []]⟩, ⟨.number "2", []⟩],
        .call "f" [.var "b"]]
    let calls (args : List Expr) : Expr :=
      (Nat.repeat (fun args => [Expr.call "g" args]) 63 args).head?.getD (.var "b")
    let program (body : List Stmt) (args : List Expr) : List Stmt :=
      Nat.repeat (fun body => [Stmt.loop guard body]) 64 body ++
        [.assign "a" (.call "g" [calls args]), .exitCode]
    let printed := program inner [.call "h" [], .var "b", .call "h" [.call "h" []]]
    let script := Script.load "deep" (Stmt.listSource printed)
    script.statements = program
        [.branch guard [] [], .select (.var "a") [⟨.number "1", []⟩, ⟨.number "2", []⟩],
          .call "f" [.var "b"]] [.var "b"] ∧
      script.errors.map ParseError.fault = List.replicate 6 .nestingTooDeep := by
  intro guard inner calls program printed script
  have h := Script.load_listSource_pruned "deep" printed (by decide +kernel) (by decide +kernel)
  have hcuts : (printed.map (Stmt.cuts Parser.nestingLimit)).sum = 6 := by decide +kernel
  rw [hcuts] at h
  exact h

end DialogueScript
