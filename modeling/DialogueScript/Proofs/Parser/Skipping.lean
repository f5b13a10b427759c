import DialogueScript.Proofs.Parser.Continuation

set_option autoImplicit false

/-!
# Passing over what the grammar derives

Passing over a block or a group is counting: words that open a block against words that close one,
opening parentheses against closing ones. Whatever the grammar derives is balanced in this sense, so
counting over it ends with the count it began with, and stops at the same token as a parser that
reads it.

## Main definitions

* `DialogueScript.OnLine` — the tokens in front of some others stand on one line.

## Main results

* `DialogueScript.Grammar.Block.tokensFromBoundary_eq` — a block is passed over.
* `DialogueScript.Grammar.Expression.tokensAfterGroup_eq` — so is an expression in a group.
* `DialogueScript.Grammar.tokensAfterGroup_call` — and the arguments of a call with their
  parentheses.
* `DialogueScript.skipping_stops_as_parsing` — where there is nothing to report, passing over and
  parsing stop at the same cursor.
-/

namespace DialogueScript

open Grammar

/-! ## Counting blocks -/

section Boundary

variable {boundaries : List String} {depth : Nat} {t : Token} {ts : List Token} {word : String}

/-- A token that is no reserved word is passed over. -/
lemma tokensFromBoundary_cons_of_kind (h : t.kind ≠ .keyword) :
    tokensFromBoundary boundaries depth (t :: ts) = tokensFromBoundary boundaries depth ts := by
  simp [tokensFromBoundary, Token.isKeywordIn, h]

/-- A symbol is passed over and not counted. -/
lemma tokensFromBoundary_cons_of_isSymbol (h : t.isSymbol word = true) :
    tokensFromBoundary boundaries depth (t :: ts) = tokensFromBoundary boundaries depth ts := by
  simp only [Token.isSymbol, Bool.and_eq_true, beq_iff_eq] at h
  exact tokensFromBoundary_cons_of_kind (by simp [h.1])

/-- A name is passed over and not counted. -/
lemma tokensFromBoundary_cons_of_identifier (h : t.kind = .identifier) :
    tokensFromBoundary boundaries depth (t :: ts) = tokensFromBoundary boundaries depth ts :=
  tokensFromBoundary_cons_of_kind (by simp [h])

/-- A reserved word that is spelled just so is that reserved word. -/
lemma Token.IsWord.isKeyword (h : t.IsWord word) : t.isKeyword word = true := by
  simp [Token.isKeyword, Text.sameFolded, h.1, h.2]

/-- What a reserved word counts for does not depend on the case of its letters. -/
lemma Token.isKeywordIn_eq (h : t.isKeyword word = true) (words : List String) :
    t.isKeywordIn words = Text.isOneOfFolded word words := by
  simp only [Token.isKeyword, Text.sameFolded, Bool.and_eq_true, beq_iff_eq] at h
  have hsame : Text.sameFolded t.text = Text.sameFolded word := by
    funext other
    rw [Text.sameFolded, Text.sameFolded, h.2]
  simp [Token.isKeywordIn, Text.isOneOfFolded, h.1, hsame]

/-- A word with which a statement begins is no word at which a block may end. -/
lemma isOneOfFolded_of_statementWords (hword : word ∈ statementWords)
    (hboundaries : boundaries ⊆ boundaryWords) : Text.isOneOfFolded word boundaries = false := by
  have hdistinct : ∀ a ∈ statementWords, ∀ b ∈ boundaryWords, Text.sameFolded a b = false := by
    decide
  simpa [Text.isOneOfFolded] using fun b hb => hdistinct word hword b (hboundaries hb)

/-- A word with which a statement without a block begins is passed over. -/
lemma tokensFromBoundary_cons_of_plain (h : t.IsWord word)
    (hword : word ∈ ["global", "local", "exitcode", "return"])
    (hboundaries : boundaries ⊆ boundaryWords) :
    tokensFromBoundary boundaries depth (t :: ts) = tokensFromBoundary boundaries depth ts := by
  have hplain : ∀ a ∈ ["global", "local", "exitcode", "return"], a ∈ statementWords ∧
      Text.isOneOfFolded a blockOpeners = false ∧ Text.isOneOfFolded a blockClosers = false := by
    decide
  obtain ⟨hstatement, hopener, hcloser⟩ := hplain word hword
  simp [tokensFromBoundary, Token.isKeywordIn_eq h.isKeyword, hopener, hcloser,
    isOneOfFolded_of_statementWords hstatement hboundaries]

/-- A word that opens a block is counted. -/
lemma tokensFromBoundary_cons_of_opener (h : t.IsWord word) (hword : word ∈ blockOpeners)
    (hboundaries : boundaries ⊆ boundaryWords) :
    tokensFromBoundary boundaries depth (t :: ts) =
      tokensFromBoundary boundaries (depth + 1) ts := by
  have hopeners : ∀ a ∈ blockOpeners, a ∈ statementWords ∧
      Text.isOneOfFolded a blockOpeners = true := by
    decide
  obtain ⟨hstatement, hopener⟩ := hopeners word hword
  simp [tokensFromBoundary, Token.isKeywordIn_eq h.isKeyword, hopener,
    isOneOfFolded_of_statementWords hstatement hboundaries]

/-- A word that closes a block takes the count back. -/
lemma tokensFromBoundary_cons_of_closer (h : t.isKeyword word = true)
    (hword : word ∈ blockClosers) :
    tokensFromBoundary boundaries (depth + 1) (t :: ts) =
      tokensFromBoundary boundaries depth ts := by
  have hclosers : ∀ a ∈ blockClosers, Text.isOneOfFolded a blockOpeners = false ∧
      Text.isOneOfFolded a blockClosers = true := by
    decide
  simp [tokensFromBoundary, Token.isKeywordIn_eq h, hclosers word hword]

/-- A word that divides a block is passed over inside the block. -/
lemma tokensFromBoundary_cons_of_divider (h : t.isKeyword word = true)
    (hword : word ∈ ["else", "case"]) :
    tokensFromBoundary boundaries (depth + 1) (t :: ts) =
      tokensFromBoundary boundaries (depth + 1) ts := by
  have hdividers : ∀ a ∈ ["else", "case"], Text.isOneOfFolded a blockOpeners = false ∧
      Text.isOneOfFolded a blockClosers = false := by
    decide
  simp [tokensFromBoundary, Token.isKeywordIn_eq h, hdividers word hword]

/-- Counting stops at a boundary word outside all blocks. -/
lemma tokensFromBoundary_of_boundary (h : t.isKeywordIn boundaries = true) :
    tokensFromBoundary boundaries 0 (t :: ts) = t :: ts := by
  simp [tokensFromBoundary, h]

end Boundary

namespace Grammar

variable {boundaries : List String}

mutual

/-- An expression is passed over and not counted. -/
lemma Expression.tokensFromBoundary_eq {ts rest : List Token} {e : Expr} (depth : Nat) :
    Expression ts e rest →
      tokensFromBoundary boundaries depth ts = tokensFromBoundary boundaries depth rest
  | .string ht => tokensFromBoundary_cons_of_kind (by simp [ht])
  | .number ht => tokensFromBoundary_cons_of_kind (by simp [ht])
  | .boolean ht => tokensFromBoundary_cons_of_kind (by simp [ht])
  | .var hname _ => tokensFromBoundary_cons_of_identifier hname
  | .call hname hopening hargs hclosing => by
    rw [tokensFromBoundary_cons_of_identifier hname, tokensFromBoundary_cons_of_isSymbol hopening,
      Expression.separated_tokensFromBoundary_eq depth hargs,
      tokensFromBoundary_cons_of_isSymbol hclosing]

/-- Arguments are passed over and not counted. -/
lemma Expression.separated_tokensFromBoundary_eq {ts rest : List Token} {es : List Expr}
    (depth : Nat) : Reading.Separated Expression ts es rest →
      tokensFromBoundary boundaries depth ts = tokensFromBoundary boundaries depth rest
  | .nil => rfl
  | .last ha => Expression.tokensFromBoundary_eq depth ha
  | .more ha hcomma has => by
    rw [Expression.tokensFromBoundary_eq depth ha, tokensFromBoundary_cons_of_isSymbol hcomma,
      Expression.separated_tokensFromBoundary_eq depth has]

end

variable {ts rest : List Token} {depth : Nat}

/-- A condition is passed over and not counted. -/
lemma Comparison.tokensFromBoundary_eq {condition : Condition} (h : Comparison ts condition rest) :
    tokensFromBoundary boundaries depth ts = tokensFromBoundary boundaries depth rest := by
  obtain ⟨hleft, hequals, hright⟩ := h
  rw [hleft.tokensFromBoundary_eq, tokensFromBoundary_cons_of_isSymbol hequals,
    hright.tokensFromBoundary_eq]

/-- A run of names is passed over and not counted. -/
lemma NameList.tokensFromBoundary_eq {names : List String} (h : NameList ts names rest) :
    tokensFromBoundary boundaries depth ts = tokensFromBoundary boundaries depth rest := by
  induction h with
  | done _ => rfl
  | name hname _ ih => rw [tokensFromBoundary_cons_of_identifier hname, ih]
  | comma hcomma _ ih => rw [tokensFromBoundary_cons_of_isSymbol hcomma, ih]

/-- Parameters are passed over and not counted. -/
lemma Parameters.tokensFromBoundary_eq {params : List String} (h : Parameters ts params rest) :
    tokensFromBoundary boundaries depth ts = tokensFromBoundary boundaries depth rest := by
  have hnames : ∀ {ts rest params}, Reading.Separated Name ts params rest →
      tokensFromBoundary boundaries depth ts = tokensFromBoundary boundaries depth rest := by
    intro ts rest params h
    induction h with
    | nil => rfl
    | last ha =>
      obtain ⟨hname⟩ := ha
      exact tokensFromBoundary_cons_of_identifier hname
    | more ha hcomma _ ih =>
      obtain ⟨hname⟩ := ha
      rw [tokensFromBoundary_cons_of_identifier hname, tokensFromBoundary_cons_of_isSymbol hcomma,
        ih]
  cases h with
  | absent => rfl
  | present hopening hparams hclosing =>
    rw [tokensFromBoundary_cons_of_isSymbol hopening, hnames hparams,
      tokensFromBoundary_cons_of_isSymbol hclosing]

mutual

/-- Counting over a statement ends with the count it began with, since whatever it opens it closes.
-/
lemma Statement.tokensFromBoundary_eq (hboundaries : boundaries ⊆ boundaryWords)
    {ts rest : List Token} {s : Stmt} (depth : Nat) : Statement ts s rest →
      tokensFromBoundary boundaries depth ts = tokensFromBoundary boundaries depth rest
  | .assign hname hequals hvalue => by
    rw [tokensFromBoundary_cons_of_identifier hname, tokensFromBoundary_cons_of_isSymbol hequals,
      hvalue.tokensFromBoundary_eq]
  | .call hname hopening hargs hclosing => by
    rw [tokensFromBoundary_cons_of_identifier hname, tokensFromBoundary_cons_of_isSymbol hopening,
      Expression.separated_tokensFromBoundary_eq depth hargs,
      tokensFromBoundary_cons_of_isSymbol hclosing]
  | .declare hword hname hparams hbody hclosing => by
    rw [tokensFromBoundary_cons_of_opener hword (by decide) hboundaries,
      tokensFromBoundary_cons_of_identifier hname, hparams.tokensFromBoundary_eq,
      Block.tokensFromBoundary_eq hboundaries _ hbody,
      tokensFromBoundary_cons_of_closer hclosing (by decide)]
  | .globals hword hnames _ => by
    rw [tokensFromBoundary_cons_of_plain hword (by decide) hboundaries,
      hnames.tokensFromBoundary_eq]
  | .locals hword hnames => by
    rw [tokensFromBoundary_cons_of_plain hword (by decide) hboundaries,
      hnames.tokensFromBoundary_eq]
  | .exitCode hword => tokensFromBoundary_cons_of_plain hword (by decide) hboundaries
  | .branch hword hcondition hthen hclosing => by
    rw [tokensFromBoundary_cons_of_opener hword (by decide) hboundaries,
      hcondition.tokensFromBoundary_eq, Block.tokensFromBoundary_eq hboundaries _ hthen,
      tokensFromBoundary_cons_of_closer hclosing (by decide)]
  | .branchElse hword hcondition hthen hdivider helse hclosing => by
    rw [tokensFromBoundary_cons_of_opener hword (by decide) hboundaries,
      hcondition.tokensFromBoundary_eq, Block.tokensFromBoundary_eq hboundaries _ hthen,
      tokensFromBoundary_cons_of_divider hdivider (by decide),
      Block.tokensFromBoundary_eq hboundaries _ helse,
      tokensFromBoundary_cons_of_closer hclosing (by decide)]
  | .select hword hselector hcases hclosing => by
    rw [tokensFromBoundary_cons_of_opener hword (by decide) hboundaries,
      hselector.tokensFromBoundary_eq, Cases.tokensFromBoundary_eq hboundaries _ hcases,
      tokensFromBoundary_cons_of_closer hclosing (by decide)]
  | .loop hword hcondition hbody hclosing => by
    rw [tokensFromBoundary_cons_of_opener hword (by decide) hboundaries,
      hcondition.tokensFromBoundary_eq, Block.tokensFromBoundary_eq hboundaries _ hbody,
      tokensFromBoundary_cons_of_closer hclosing (by decide)]
  | .ret hword _ => tokensFromBoundary_cons_of_plain hword (by decide) hboundaries
  | .retValue hword _ hvalue => by
    rw [tokensFromBoundary_cons_of_plain hword (by decide) hboundaries,
      hvalue.tokensFromBoundary_eq]

/-- **Counting over a block ends with the count it began with.** -/
lemma Block.tokensFromBoundary_eq (hboundaries : boundaries ⊆ boundaryWords)
    {ts rest : List Token} {body : List Stmt} (depth : Nat) : Block Statement ts body rest →
      tokensFromBoundary boundaries depth ts = tokensFromBoundary boundaries depth rest
  | .done => rfl
  | .newline ht hbody => by
    rw [tokensFromBoundary_cons_of_kind (by simp [ht]),
      Block.tokensFromBoundary_eq hboundaries depth hbody]
  | .cons hstmt hbody => by
    rw [Statement.tokensFromBoundary_eq hboundaries depth hstmt,
      Block.tokensFromBoundary_eq hboundaries depth hbody]

/-- The words of cases do not count inside their `switch`. -/
lemma Cases.tokensFromBoundary_eq (hboundaries : boundaries ⊆ boundaryWords)
    {ts rest : List Token} {cases : List CaseBlock} (depth : Nat) :
    Cases (Block Statement) ts cases rest →
      tokensFromBoundary boundaries (depth + 1) ts = tokensFromBoundary boundaries (depth + 1) rest
  | .done => rfl
  | .cons hword hvalue hbody hcases => by
    rw [tokensFromBoundary_cons_of_divider hword (by decide), hvalue.tokensFromBoundary_eq,
      Block.tokensFromBoundary_eq hboundaries _ hbody,
      Cases.tokensFromBoundary_eq hboundaries depth hcases]

end

end Grammar

/-! ## Counting parentheses -/

/-- The tokens in front of `rest` stand on the line. -/
def OnLine (line : Nat) (ts rest : List Token) : Prop :=
  ∃ taken, ts = taken ++ rest ∧ ∀ t ∈ taken, t.line = line

namespace OnLine

variable {line : Nat} {t : Token} {ts mid rest : List Token}

/-- What stands on a line may be cut in two. -/
lemma split (h : OnLine line ts rest) (hmid : mid <:+ ts) (hrest : rest <:+ mid) :
    OnLine line ts mid ∧ OnLine line mid rest := by
  obtain ⟨taken, hts, htaken⟩ := h
  obtain ⟨first, rfl⟩ := hmid
  obtain ⟨second, rfl⟩ := hrest
  rw [← List.append_assoc, List.append_cancel_right_eq] at hts
  subst hts
  exact ⟨⟨first, rfl, fun t ht => htaken t (List.mem_append_left _ ht)⟩,
    ⟨second, rfl, fun t ht => htaken t (List.mem_append_right _ ht)⟩⟩

/-- A token with nothing but the rest behind it stands on the line. -/
lemma head (h : OnLine line (t :: ts) ts) : t.line = line := by
  obtain ⟨taken, hts, htaken⟩ := h
  have hone : [t] ++ ts = taken ++ ts := hts
  rw [List.append_cancel_right_eq] at hone
  exact htaken t (by simp [← hone])

/-- The first token stands on the line, and so do the others. -/
lemma cons (h : OnLine line (t :: ts) rest) (hrest : rest <:+ ts) :
    t.line = line ∧ OnLine line ts rest := by
  obtain ⟨hfirst, hlater⟩ := h.split (List.suffix_cons t ts) hrest
  exact ⟨hfirst.head, hlater⟩

end OnLine

section Group

variable {line depth : Nat} {t : Token} {ts : List Token}

/-- A token that is no symbol is passed over. -/
lemma tokensAfterGroup_cons_of_kind (hline : t.line = line) (h : t.kind ≠ .symbol) :
    tokensAfterGroup line depth (t :: ts) = tokensAfterGroup line depth ts := by
  simp [tokensAfterGroup, Token.isSymbol, hline, h]

/-- A comma in a group is passed over. -/
lemma tokensAfterGroup_cons_of_comma (hline : t.line = line) (h : t.isSymbol "," = true) :
    tokensAfterGroup line depth (t :: ts) = tokensAfterGroup line depth ts := by
  simp [tokensAfterGroup, hline, Token.isSymbol_ne h]

/-- An opening parenthesis is counted. -/
lemma tokensAfterGroup_cons_of_opening (hline : t.line = line) (h : t.isSymbol "(" = true) :
    tokensAfterGroup line depth (t :: ts) = tokensAfterGroup line (depth + 1) ts := by
  simp [tokensAfterGroup, hline, h]

/-- A closing parenthesis inside another pair takes the count back. -/
lemma tokensAfterGroup_cons_of_closing (hline : t.line = line) (h : t.isSymbol ")" = true) :
    tokensAfterGroup line (depth + 2) (t :: ts) = tokensAfterGroup line (depth + 1) ts := by
  simp [tokensAfterGroup, hline, h, Token.isSymbol_ne h]

/-- The last closing parenthesis ends the group. -/
lemma tokensAfterGroup_cons_of_last (hline : t.line = line) (h : t.isSymbol ")" = true) :
    tokensAfterGroup line 1 (t :: ts) = ts := by
  simp [tokensAfterGroup, hline, h, Token.isSymbol_ne h]

end Group

namespace Grammar

variable {line : Nat}

/-- What is behind some arguments is a part of the tokens. -/
lemma Expression.separated_suffix {ts rest : List Token} {es : List Expr}
    (h : Reading.Separated Expression ts es rest) : rest <:+ ts := by
  induction h with
  | nil => exact List.suffix_rfl
  | last ha => exact ha.suffix
  | more ha _ _ ih => exact ih.trans ((List.suffix_cons _ _).trans ha.suffix)

mutual

/-- **Counting over an expression in a group ends with the count it began with.** -/
lemma Expression.tokensAfterGroup_eq {ts rest : List Token} {e : Expr} (depth : Nat) :
    Expression ts e rest → OnLine line ts rest →
      tokensAfterGroup line (depth + 1) ts = tokensAfterGroup line (depth + 1) rest
  | .string ht, hline => tokensAfterGroup_cons_of_kind hline.head (by simp [ht])
  | .number ht, hline => tokensAfterGroup_cons_of_kind hline.head (by simp [ht])
  | .boolean ht, hline => tokensAfterGroup_cons_of_kind hline.head (by simp [ht])
  | .var hname _, hline => tokensAfterGroup_cons_of_kind hline.head (by simp [hname])
  | @Expression.call name opening closing ts rest args hname hopening hargs hclosing, hline => by
    have hsuffix := Expression.separated_suffix hargs
    have hrest : rest <:+ ts := (List.suffix_cons closing rest).trans hsuffix
    obtain ⟨hnameLine, hline⟩ := hline.cons (hrest.trans (List.suffix_cons opening ts))
    obtain ⟨hopeningLine, hline⟩ := hline.cons hrest
    obtain ⟨hargsLine, hline⟩ := hline.split hsuffix (List.suffix_cons closing rest)
    rw [tokensAfterGroup_cons_of_kind hnameLine (by simp [hname]),
      tokensAfterGroup_cons_of_opening hopeningLine hopening,
      Expression.separated_tokensAfterGroup_eq (depth + 1) hargs hargsLine,
      tokensAfterGroup_cons_of_closing hline.head hclosing]

/-- Counting over arguments in a group ends with the count it began with. -/
lemma Expression.separated_tokensAfterGroup_eq {ts rest : List Token} {es : List Expr}
    (depth : Nat) : Reading.Separated Expression ts es rest → OnLine line ts rest →
      tokensAfterGroup line (depth + 1) ts = tokensAfterGroup line (depth + 1) rest
  | .nil, _ => rfl
  | .last ha, hline => Expression.tokensAfterGroup_eq depth ha hline
  | @Reading.Separated.more _ _ _ mid _ comma _ _ ha hcomma has, hline => by
    have hsuffix := Expression.separated_suffix has
    obtain ⟨hitemLine, hline⟩ :=
      hline.split ha.suffix (hsuffix.trans (List.suffix_cons comma mid))
    obtain ⟨hcommaLine, hline⟩ := hline.cons hsuffix
    rw [Expression.tokensAfterGroup_eq depth ha hitemLine,
      tokensAfterGroup_cons_of_comma hcommaLine hcomma,
      Expression.separated_tokensAfterGroup_eq depth has hline]

end

/-- **The arguments of a call are passed over** with their parentheses, if they stand on one
line. -/
lemma tokensAfterGroup_call {opening closing : Token} {ts rest : List Token} {args : List Expr}
    (hopening : opening.isSymbol "(" = true)
    (hargs : Reading.Separated Expression ts args (closing :: rest))
    (hclosing : closing.isSymbol ")" = true) (hline : OnLine line (opening :: ts) rest) :
    tokensAfterGroup line 0 (opening :: ts) = rest := by
  have hsuffix := Expression.separated_suffix hargs
  obtain ⟨hopeningLine, hline⟩ := hline.cons ((List.suffix_cons closing rest).trans hsuffix)
  obtain ⟨hargsLine, hline⟩ := hline.split hsuffix (List.suffix_cons closing rest)
  rw [tokensAfterGroup_cons_of_opening hopeningLine hopening,
    Expression.separated_tokensAfterGroup_eq 0 hargs hargsLine,
    tokensAfterGroup_cons_of_last hline.head hclosing]

end Grammar

/-! ## Passing over and parsing -/

namespace Parser

variable {α : Type} {boundaries : List String}

/-- A run that adds no report accepts. -/
lemma accepts_of_errors_eq_nil {p : Parser α} {c : Cursor} (h : (p c).errors = []) :
    Accepts p c (p c).value (p c).rest := by
  rw [Accepts, ← h]

/-- With some room the parser of blocks recognizes those that fit into it. -/
lemma recognizes_block (room : Nat) (hboundaries : boundaries ⊆ boundaryWords) :
    (block room boundaries).Recognizes (BlockUntil room boundaries) := by
  cases room with
  | zero =>
    intro ts n body c'
    simp [block, blockTooDeep, BlockUntil, BlockWithin]
  | succ room => exact recognizes_blockOf (recognizes_statement room) hboundaries

/-- **A block that is parsed without a report is passed over** up to the word where parsing it
stops. -/
lemma rest_skipBlock_of_clean {room : Nat} {cursor : Cursor}
    (hboundaries : boundaries ⊆ boundaryWords)
    (hclean : (block room boundaries cursor).errors = []) :
    (skipBlock boundaries cursor).rest = (block room boundaries cursor).rest := by
  obtain ⟨ts, n⟩ := cursor
  obtain ⟨rest, hrest, ⟨⟨hblock, -⟩, hends⟩⟩ :=
    (recognizes_block room hboundaries ts n _ _).mp (accepts_of_errors_eq_nil hclean)
  -- Outside all blocks, counting stops where the block ends: at a boundary word or with the input.
  have hstop : tokensFromBoundary boundaries 0 rest = rest := by
    cases rest with
    | nil => rfl
    | cons t rest => exact tokensFromBoundary_of_boundary (hends t rfl)
  have hskip : tokensFromBoundary boundaries 0 ts = rest :=
    (hblock.tokensFromBoundary_eq hboundaries 0).trans hstop
  rw [hrest, ← hskip]
  rfl

/-- **Arguments that are parsed without a report are passed over** with their parentheses, if they
stand on one line. -/
lemma rest_skipParenthesized_of_clean {room line : Nat} {name : String} {cursor : Cursor}
    (hopening : cursor.peek.isSymbol "(" = true)
    (hclean : (callArguments (expression room) name cursor).errors = [])
    (hline : OnLine line cursor.tokens
      (callArguments (expression room) name cursor).rest.tokens) :
    (skipParenthesized cursor).rest = (callArguments (expression room) name cursor).rest := by
  obtain ⟨ts, n⟩ := cursor
  obtain ⟨opening, ts, rfl, hparen⟩ := Cursor.exists_cons_of_isSymbol hopening
  obtain ⟨args, closing, rest, hargs, hclosing, -, hrest⟩ :=
    (accepts_callArguments_iff (recognizes_expression room) ExpressionWithin.takes
      ExpressionWithin.not_isSymbol hparen).mp (accepts_of_errors_eq_nil hclean)
  have hargs : Reading.Separated Expression ts args (closing :: rest) :=
    (separated_within_iff.mp hargs).1
  rw [hrest] at hline ⊢
  have hsuffix : rest <:+ ts :=
    (List.suffix_cons closing rest).trans (Expression.separated_suffix hargs)
  have hfirst : opening.line = line := (hline.cons hsuffix).1
  have hskip : tokensAfterGroup opening.line 0 (opening :: ts) = rest :=
    tokensAfterGroup_call hparen hargs hclosing (hfirst ▸ hline)
  rw [← hskip]
  rfl

end Parser

/-- **Passing over stops where parsing does.** Take any cursor and any words at which a block may
end: those of a function, of a branch before and behind `else`, of a loop, of a case. If the block
at the cursor is parsed without a report, at whatever depth, then passing over it leaves the same
cursor. And if the cursor is at an opening parenthesis, the arguments of a call are parsed from
there without a report, and everything from there to the closing parenthesis stands on one line,
then passing over the group leaves the same cursor.

The one counts openings and closings of all sorts alike and keeps nothing but their difference; the
other keeps, for each block that it is in, which words end it.

**Proof sketch.** A run without a report follows a derivation (`Parser.recognizes_block`,
`Parser.accepts_callArguments_iff`), and by induction on it counting over what it derives ends with
the count it began with (`Grammar.Block.tokensFromBoundary_eq`,
`Grammar.Expression.tokensAfterGroup_eq`). So the count is back at the start exactly where the
parser stops, and there stands a boundary word, or the parenthesis that was opened first is
closed. -/
theorem skipping_stops_as_parsing (room : Nat) (cursor : Cursor) :
    (∀ boundaries ⊆ boundaryWords, (Parser.block room boundaries cursor).errors = [] →
      (Parser.skipBlock boundaries cursor).rest = (Parser.block room boundaries cursor).rest) ∧
    ∀ name : String, cursor.peek.isSymbol "(" = true →
      (Parser.callArguments (Parser.expression room) name cursor).errors = [] →
        ∀ line, OnLine line cursor.tokens
            (Parser.callArguments (Parser.expression room) name cursor).rest.tokens →
          (Parser.skipParenthesized cursor).rest =
            (Parser.callArguments (Parser.expression room) name cursor).rest :=
  ⟨fun _ hboundaries hclean => Parser.rest_skipBlock_of_clean hboundaries hclean,
    fun _ hopening hclean _ hline => Parser.rest_skipParenthesized_of_clean hopening hclean hline⟩

/-- A loop with a branch and a choice in it, all of which end with words in capitals, stands in
front of an `else` that ends the block. Behind it a call has a call among its arguments and a comma
behind the last of them. -/
theorem skipping_stops_as_parsing_nested :
    let loop : List Token := [⟨.keyword, "while", 1⟩, ⟨.identifier, "a", 1⟩, ⟨.symbol, "=", 1⟩,
      ⟨.number, "1", 1⟩, ⟨.keyword, "if", 2⟩, ⟨.identifier, "b", 2⟩, ⟨.symbol, "=", 2⟩,
      ⟨.string, "else", 2⟩, ⟨.keyword, "Else", 3⟩, ⟨.keyword, "switch", 4⟩, ⟨.identifier, "c", 4⟩,
      ⟨.keyword, "case", 5⟩, ⟨.boolean, "true", 5⟩, ⟨.keyword, "return", 6⟩,
      ⟨.keyword, "ENDSWITCH", 7⟩, ⟨.keyword, "ENDIF", 8⟩, ⟨.keyword, "ENDWHILE", 9⟩]
    let behind : List Token := [⟨.keyword, "ELSE", 10⟩, ⟨.keyword, "endif", 11⟩]
    let group : List Token := [⟨.symbol, "(", 3⟩, ⟨.identifier, "g", 3⟩, ⟨.symbol, "(", 3⟩,
      ⟨.symbol, ")", 3⟩, ⟨.symbol, ",", 3⟩, ⟨.string, ")", 3⟩, ⟨.symbol, ",", 3⟩,
      ⟨.symbol, ")", 3⟩]
    let next : List Token := [⟨.symbol, ")", 3⟩]
    (Parser.block 4 ["else", "endif"] ⟨loop ++ behind, 11⟩).errors = [] ∧
      (Parser.block 4 ["else", "endif"] ⟨loop ++ behind, 11⟩).rest = ⟨behind, 11⟩ ∧
      (Parser.skipBlock ["else", "endif"] ⟨loop ++ behind, 11⟩).rest = ⟨behind, 11⟩ ∧
      (Parser.callArguments (Parser.expression 3) "f" ⟨group ++ next, 4⟩).rest = ⟨next, 4⟩ ∧
      (Parser.skipParenthesized ⟨group ++ next, 4⟩).rest = ⟨next, 4⟩ := by
  intro loop behind group next
  have hclean : (Parser.block 4 ["else", "endif"] ⟨loop ++ behind, 11⟩).errors = [] := by decide
  have hblock : (Parser.block 4 ["else", "endif"] ⟨loop ++ behind, 11⟩).rest = ⟨behind, 11⟩ := by
    decide
  have hgroup : (Parser.callArguments (Parser.expression 3) "f" ⟨group ++ next, 4⟩).rest =
      ⟨next, 4⟩ := by
    decide
  have hskipBlock := (skipping_stops_as_parsing 4 ⟨loop ++ behind, 11⟩).1 ["else", "endif"]
    (by decide) hclean
  have hskipGroup := (skipping_stops_as_parsing 3 ⟨group ++ next, 4⟩).2 "f" (by decide)
    (by decide) 3 (by rw [hgroup]; exact ⟨group, rfl, by decide⟩)
  exact ⟨hclean, hblock, hskipBlock.trans hblock, hgroup, hskipGroup.trans hgroup⟩

end DialogueScript
