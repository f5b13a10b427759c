import DialogueScript.Proofs.Parser.Program
import DialogueScript.Proofs.Printing.Lexing

set_option autoImplicit false

/-!
# Loading printed programs

Loading the printed text of a program gives the program back. The tokens of the text are known
(`DialogueScript.Lexed.ofSource_listSource`), so what remains is that the grammar derives the
program from them.

The derivation is built from the last statement to the first. A statement only has to know of the
tokens behind it that they stand on a later line and do not begin with an opening parenthesis: the
first keeps a `return` without a value from taking one, the second a variable from being read as a
call.

## Main definitions

* `DialogueScript.Grammar.Follows` — tokens that may stand behind a line.

## Main results

* `DialogueScript.Grammar.block_listTokens` — the grammar derives a program from its tokens.
* `DialogueScript.Script.load_listSource` — loading what was printed.
-/

namespace DialogueScript

open Grammar

/-! ## Tokens of words and literals -/

namespace Token

variable {n : Nat}

/-- A name is read as a name. -/
lemma ofLexeme_name {name : String} (h : Text.isName name = true) :
    ofLexeme n (.ofName name) = ⟨.identifier, name, n⟩ := by
  simp only [Text.isName, Bool.and_eq_true, Bool.not_eq_true'] at h
  obtain ⟨⟨⟨⟨-, hbool⟩, hdigits⟩, hreserved⟩, hcaseless⟩ := h
  simp only [ofLexeme, Lexeme.ofName, ofChunk, String.ofList_toList, hbool, hdigits, hreserved,
    hcaseless, Bool.false_eq_true, if_false]

/-- A reserved word is read as a keyword. -/
lemma ofLexeme_reserved {word : String} (h : word ∈ reservedWords) :
    ofLexeme n (.ofName word) = ⟨.keyword, word, n⟩ := by
  have hbool : ∀ word ∈ reservedWords, Text.isOneOfFolded word ["true", "false"] = false := by
    decide
  simp [ofLexeme, Lexeme.ofName, ofChunk, hbool word h, h]

/-- Digits have no case. -/
lemma foldCase_digits {cs : List Char} (h : cs.all Char.isDigit = true) :
    Text.foldCase cs = cs := by
  rw [List.all_eq_true] at h
  refine (List.map_congr_left fun c hc => ?_).trans (List.map_id cs)
  have hrange : 48 ≤ c.toNat ∧ c.toNat ≤ 57 := Char.isDigit_iff_toNat.mp (h c hc)
  refine dif_neg ?_
  rintro ⟨hle, -⟩
  have : 65 ≤ c.toNat := UInt32.le_iff_toNat_le.mp hle
  omega

/-- A literal is read as a token of its kind. -/
lemma map_ofLexeme_literal {kind : LiteralKind} {text : String}
    (h : kind.isSpelling text = true) :
    (Expr.literal kind text).lexemes.map (ofLexeme n) = [⟨kind.tokenKind, text, n⟩] := by
  cases kind with
  | string => simp [Expr.lexemes, ofLexeme, LiteralKind.tokenKind]
  | number =>
    simp only [LiteralKind.isSpelling, Bool.and_eq_true, Bool.not_eq_true'] at h
    have hwords : ∀ word ∈ reservedWords, word.toList.all Char.isDigit = false := by decide
    have hreserved : text ∉ reservedWords := by
      intro hmem
      simp [hwords text hmem] at h
    have hbool : Text.isOneOfFolded text ["true", "false"] = false := by
      have htrue : "true".toList.all Char.isDigit = false := by decide
      have hfalse : "false".toList.all Char.isDigit = false := by decide
      have hfold : ∀ word : String, word.toList.all Char.isDigit = false →
          Text.foldCase word.toList = word.toList → Text.sameFolded text word = false := by
        intro word hword hlower
        rw [Text.sameFolded, foldCase_digits h.2, hlower, beq_eq_false_iff_ne]
        intro heq
        simp [← heq, h.2] at hword
      simp [Text.isOneOfFolded, hfold "true" htrue rfl, hfold "false" hfalse rfl]
    simp [Expr.lexemes, ofLexeme, ofChunk, LiteralKind.tokenKind, hbool, hreserved, h.2]
  | boolean =>
    simp only [LiteralKind.isSpelling, Bool.or_eq_true, beq_iff_eq] at h
    obtain rfl | rfl := h <;> rfl

end Token

/-! ## Expressions -/

/-- The tokens of some lexemes, with further tokens behind them. -/
def Token.before (n : Nat) (lexemes : List Lexeme) (rest : List Token) : List Token :=
  lexemes.map (Token.ofLexeme n) ++ rest

namespace Token

variable {n : Nat} {rest : List Token}

/-- The tokens of lexemes stand in front of those of the lexemes behind them. -/
lemma before_append (xs ys : List Lexeme) :
    before n (xs ++ ys) rest = before n xs (before n ys rest) := by
  simp [before]

/-- A symbol in front of lexemes gives the token of that symbol. -/
lemma before_symbol (c : Char) (xs : List Lexeme) :
    before n (.symbol c :: xs) rest = ⟨.symbol, String.ofList [c], n⟩ :: before n xs rest := rfl

/-- A name in front of lexemes gives an identifier. -/
lemma before_name {name : String} (h : Text.isName name = true) (xs : List Lexeme) :
    before n (.ofName name :: xs) rest = ⟨.identifier, name, n⟩ :: before n xs rest := by
  rw [before, List.map_cons, ofLexeme_name h, List.cons_append, before]

/-- A reserved word in front of lexemes gives a keyword. -/
lemma before_reserved {word : String} (h : word ∈ reservedWords) (xs : List Lexeme) :
    before n (.ofName word :: xs) rest = ⟨.keyword, word, n⟩ :: before n xs rest := by
  rw [before, List.map_cons, ofLexeme_reserved h, List.cons_append, before]

/-- Items in parentheses give the tokens of the items between two symbols. -/
lemma before_inParentheses (items : List (List Lexeme)) :
    before n (Lexeme.inParentheses items) rest = ⟨.symbol, "(", n⟩ ::
      before n (Lexeme.withCommas items) (⟨.symbol, ")", n⟩ :: rest) := by
  rw [Lexeme.inParentheses, before_symbol, before_append]
  rfl

/-- There is the token of a comma between two items. -/
lemma before_withCommas_cons_cons (x y : List Lexeme) (items : List (List Lexeme)) :
    before n (Lexeme.withCommas (x :: y :: items)) rest =
      before n x (⟨.symbol, ",", n⟩ :: before n (Lexeme.withCommas (y :: items)) rest) := by
  rw [Lexeme.withCommas, List.intercalate_cons_cons, before_append, before_append]
  rfl

end Token

namespace Grammar

open Token

variable {n : Nat} {rest : List Token}

mutual

/-- The grammar derives a printable expression from its tokens. -/
lemma expression_before : (e : Expr) → e.isPrintable = true → (n : Nat) → (rest : List Token) →
    (∀ t ∈ rest.head?, t.isSymbol "(" = false) →
    Expression (before n e.lexemes rest) e rest
  | .literal kind text, h, n, rest, _ => by
    rw [before, map_ofLexeme_literal (by simpa [Expr.isPrintable] using h)]
    cases kind with
    | string => exact .string rfl
    | number => exact .number rfl
    | boolean => exact .boolean rfl
  | .var name, h, n, rest, hrest => by
    rw [Expr.isPrintable] at h
    rw [Expr.lexemes, before_name h]
    exact .var rfl hrest
  | .call name args, h, n, rest, _ => by
    rw [Expr.isPrintable, Bool.and_eq_true] at h
    rw [Expr.lexemes, List.singleton_append, before_name h.1, before_inParentheses]
    exact .call rfl rfl (separated_before args h.2 n rest) rfl

/-- The grammar derives printable expressions from their tokens. -/
lemma separated_before : (es : List Expr) → Expr.listIsPrintable es = true → (n : Nat) →
    (rest : List Token) →
    Reading.Separated Expression
      (before n (Lexeme.withCommas (Expr.listLexemes es)) (⟨.symbol, ")", n⟩ :: rest)) es
      (⟨.symbol, ")", n⟩ :: rest)
  | [], _, _, _ => .nil
  | [e], h, n, rest => by
    rw [Expr.listIsPrintable, Bool.and_eq_true] at h
    refine .last ?_
    have hlexemes : Lexeme.withCommas (Expr.listLexemes [e]) = e.lexemes := by
      simp [Expr.listLexemes, Lexeme.withCommas]
    rw [hlexemes]
    exact expression_before e h.1 n _ (by simp [Token.isSymbol])
  | e :: f :: es, h, n, rest => by
    rw [Expr.listIsPrintable, Bool.and_eq_true] at h
    have hlater := separated_before (f :: es) h.2 n rest
    rw [Expr.listLexemes] at hlater ⊢
    rw [Expr.listLexemes, before_withCommas_cons_cons]
    exact .more (expression_before e h.1 n _ (by simp [Token.isSymbol])) rfl hlater

end

/-- The grammar derives a printable condition from its tokens. -/
lemma comparison_before {condition : Condition} (h : condition.isPrintable = true)
    (hrest : ∀ t ∈ rest.head?, t.isSymbol "(" = false) :
    Comparison (before n condition.lexemes rest) condition rest := by
  match condition, h with
  | ⟨some left, .eq, some right⟩, h =>
    rw [Condition.isPrintable, Bool.and_eq_true] at h
    have hleft : ∀ ts, Expression (before n left.lexemes (⟨.symbol, "=", n⟩ :: ts)) left
        (⟨.symbol, "=", n⟩ :: ts) :=
      fun ts => expression_before left h.1 n _ (by simp [Token.isSymbol])
    have hright := expression_before right h.2 n rest hrest
    rw [Condition.lexemes, before_append, List.singleton_append, before_symbol]
    exact .mk (hleft _) rfl hright

/-- The grammar derives parameters from their tokens. -/
lemma separated_names_before {names : List String} (h : names.all Text.isName = true) :
    Reading.Separated Name
      (before n (Lexeme.withCommas (Lexeme.ofNames names)) (⟨.symbol, ")", n⟩ :: rest)) names
      (⟨.symbol, ")", n⟩ :: rest) := by
  induction names with
  | nil => exact .nil
  | cons name names ih =>
    rw [List.all_cons, Bool.and_eq_true] at h
    cases names with
    | nil =>
      have hlexemes : Lexeme.withCommas (Lexeme.ofNames [name]) = [.ofName name] := by
        simp [Lexeme.ofNames, Lexeme.withCommas]
      rw [hlexemes, before_name h.1]
      exact .last (.mk rfl)
    | cons next names =>
      have hlater := ih h.2
      simp only [Lexeme.ofNames, List.map_cons] at hlater ⊢
      rw [before_withCommas_cons_cons, before_name h.1]
      exact .more (.mk rfl) rfl hlater

/-- The grammar derives declared names from their tokens, up to the newline token. -/
lemma nameList_before {names : List String} (h : names.all Text.isName = true) :
    NameList (before n (Lexeme.withCommas (Lexeme.ofNames names)) (⟨.newline, "", n⟩ :: rest))
      names (⟨.newline, "", n⟩ :: rest) := by
  have hdone : NameList (⟨.newline, "", n⟩ :: rest) [] (⟨.newline, "", n⟩ :: rest) :=
    .done (by simp [Token.isSymbol])
  induction names with
  | nil => exact hdone
  | cons name names ih =>
    rw [List.all_cons, Bool.and_eq_true] at h
    cases names with
    | nil =>
      have hlexemes : Lexeme.withCommas (Lexeme.ofNames [name]) = [.ofName name] := by
        simp [Lexeme.ofNames, Lexeme.withCommas]
      rw [hlexemes, before_name h.1]
      exact .name rfl hdone
    | cons next names =>
      have hlater := ih h.2
      simp only [Lexeme.ofNames, List.map_cons] at hlater ⊢
      rw [before_withCommas_cons_cons, before_name h.1]
      exact .name rfl (.comma rfl hlater)

end Grammar

/-! ## Lines -/

namespace Token

variable {n : Nat} {rest : List Token}

/-- The tokens of a line that begins with a name. -/
lemma ofLexemes_name_append {name : String} (h : Text.isName name = true) (ls : List Lexeme) :
    ofLexemes n (.ofName name :: ls) ++ rest = ⟨.identifier, name, n⟩ :: before n ls rest := by
  have hne : ∀ word ∈ reservedWords, name ≠ word := by
    rintro word hmem rfl
    simp [Text.isName, hmem] at h
  have hplain : startsDeclaration ((.ofName name :: ls).map (ofLexeme n)) = false := by
    simp [startsDeclaration, ofLexeme_name h, hne "global" (by decide), hne "local" (by decide)]
  rw [ofLexemes]
  simp only [hplain, Bool.false_eq_true, if_false]
  exact before_name h ls

/-- The tokens of a line that begins with a reserved word and declares no variables. -/
lemma ofLexemes_reserved_append {word : String}
    (h : word ∈ reservedWords ∧ word ≠ "global" ∧ word ≠ "local") (ls : List Lexeme) :
    ofLexemes n (.ofName word :: ls) ++ rest = ⟨.keyword, word, n⟩ :: before n ls rest := by
  obtain ⟨h, hglobal, hlocal⟩ := h
  have hplain : startsDeclaration ((.ofName word :: ls).map (ofLexeme n)) = false := by
    simp [startsDeclaration, ofLexeme_reserved h, hglobal, hlocal]
  rw [ofLexemes]
  simp only [hplain, Bool.false_eq_true, if_false]
  exact before_reserved h ls

/-- The tokens of a line that declares variables: a newline token stands behind them. -/
lemma ofLexemes_declaration_append {word : String} (h : word = "global" ∨ word = "local")
    (ls : List Lexeme) :
    ofLexemes n (.ofName word :: ls) ++ rest =
      ⟨.keyword, word, n⟩ :: before n ls (⟨.newline, "", n⟩ :: rest) := by
  have hmem : word ∈ reservedWords := by
    obtain rfl | rfl := h <;> decide
  have hstarts : startsDeclaration ((.ofName word :: ls).map (ofLexeme n)) = true := by
    simp [startsDeclaration, ofLexeme_reserved hmem, h]
  rw [ofLexemes]
  simp only [hstarts, if_true, List.append_assoc]
  exact before_reserved hmem ls

/-- A keyword is the keyword with its text. -/
lemma isKeyword_self {word : String} : isKeyword ⟨.keyword, word, n⟩ word = true := by
  simp [isKeyword, Text.sameFolded]

/-- The token of a lexeme is on the line of the lexeme. -/
@[simp] lemma ofLexeme_line {l : Lexeme} : (ofLexeme n l).line = n := by
  cases l with
  | symbol _ => rfl
  | quoted _ _ => rfl
  | chunk _ =>
    rw [ofLexeme, ofChunk]
    repeat' split
    all_goals rfl

/-- The token of a word is no symbol. -/
lemma isSymbol_ofLexeme_ofName {word symbol : String} :
    (ofLexeme n (.ofName word)).isSymbol symbol = false := by
  rw [Lexeme.ofName, ofLexeme, ofChunk, isSymbol]
  repeat' split
  all_goals rfl

end Token

namespace Grammar

open Token

variable {n : Nat} {rest : List Token}

/-- The tokens may stand behind a line in front of line `n`: they begin on that line or further
down, and not with an opening parenthesis. -/
def Follows (n : Nat) (rest : List Token) : Prop :=
  ∀ t ∈ rest.head?, n ≤ t.line ∧ t.isSymbol "(" = false

/-- Tokens that may stand behind a line do not begin with an opening parenthesis. -/
lemma Follows.not_opening (h : Follows n rest) : ∀ t ∈ rest.head?, t.isSymbol "(" = false :=
  fun t ht => (h t ht).2

/-- A keyword on the next line may stand behind a line. -/
lemma follows_keyword {word : String} : Follows n (⟨.keyword, word, n⟩ :: rest) := by
  rintro t ⟨⟩
  exact ⟨Nat.le_refl n, rfl⟩

/-- The first lexeme of a line is a name or a reserved word. -/
lemma exists_lexemes_eq_cons (line : Line) :
    ∃ word ls, line.lexemes = .ofName word :: ls := by
  match line with
  | .reserved word => exact ⟨word, _, rfl⟩
  | .operand word _ => exact ⟨word, _, rfl⟩
  | .guard word _ => exact ⟨word, _, rfl⟩
  | .declared word _ => exact ⟨word, _, rfl⟩
  | .head _ [] => exact ⟨"code", _, rfl⟩
  | .head _ (_ :: _) => exact ⟨"code", _, rfl⟩
  | .assign name _ => exact ⟨name, _, rfl⟩
  | .call name _ => exact ⟨name, _, rfl⟩

/-- Lines may stand behind a line. -/
lemma follows_listTokens {lines : List Line} (h : Follows (n + lines.length) rest) :
    Follows n (Line.listTokens n lines ++ rest) := by
  cases lines with
  | nil => exact h
  | cons line later =>
    obtain ⟨word, ls, hline⟩ := exists_lexemes_eq_cons line
    have htokens : ∃ ts, line.tokens n = Token.ofLexeme n (.ofName word) :: ts := by
      rw [Line.tokens, hline, Token.ofLexemes]
      split <;> exact ⟨_, rfl⟩
    obtain ⟨ts, htokens⟩ := htokens
    rw [Line.listTokens, htokens]
    intro t ht
    simp only [List.cons_append, List.head?_cons, Option.mem_some_iff] at ht
    subst ht
    exact ⟨ofLexeme_line.ge, isSymbol_ofLexeme_ofName⟩

/-- The tokens of lines stand in front of those of the lines behind them. -/
lemma listTokens_append (xs ys : List Line) :
    Line.listTokens n (xs ++ ys) = Line.listTokens n xs ++ Line.listTokens (n + xs.length) ys := by
  induction xs generalizing n with
  | nil => rfl
  | cons line xs ih =>
    simp only [List.cons_append, Line.listTokens, ih, List.append_assoc, List.length_cons,
      Nat.add_assoc, Nat.add_comm 1]

/-- A single line has its own tokens. -/
lemma listTokens_singleton (line : Line) : Line.listTokens n [line] = line.tokens n :=
  List.append_nil _

/-- A line with one reserved word behind other lines. -/
lemma listTokens_reserved_append {word : String}
    (h : word ∈ reservedWords ∧ word ≠ "global" ∧ word ≠ "local") (lines : List Line) :
    Line.listTokens n (lines ++ [.reserved word]) ++ rest =
      Line.listTokens n lines ++ ⟨.keyword, word, n + lines.length⟩ :: rest := by
  rw [listTokens_append, List.append_assoc, listTokens_singleton, Line.tokens, Line.lexemes,
    ofLexemes_reserved_append h, before, List.map_nil, List.nil_append]

/-! ## Statements -/

/-- The tokens of the head of a declaration, from which the grammar derives its parameters. -/
lemma exists_parameters {name : String} {params : List String} (hname : Text.isName name = true)
    (hparams : params.all Text.isName = true) (n : Nat) (rest : List Token) :
    ∃ ts, (Line.head name params).tokens n ++ rest =
      ⟨.keyword, "code", n⟩ :: ⟨.identifier, name, n⟩ :: ts ∧ Parameters ts params rest := by
  cases params with
  | nil =>
    refine ⟨rest, ?_, .absent⟩
    rw [Line.tokens, Line.lexemes, List.singleton_append,
      ofLexemes_reserved_append (by decide), before_name hname]
    rfl
  | cons param params =>
    have hnames : Reading.Separated Name _ (param :: params) (⟨.symbol, ")", n⟩ :: rest) :=
      separated_names_before hparams
    refine ⟨⟨.symbol, "(", n⟩ :: _, ?_, .present rfl hnames rfl⟩
    rw [Line.tokens, Line.lexemes, List.singleton_append, ofLexemes_reserved_append (by decide),
      List.singleton_append, before_name hname, before_inParentheses]

/-- The tokens of a word with an expression behind it. -/
lemma operand_tokens_append {word : String}
    (h : word ∈ reservedWords ∧ word ≠ "global" ∧ word ≠ "local") (value : Expr) :
    (Line.operand word value).tokens n ++ rest =
      ⟨.keyword, word, n⟩ :: before n value.lexemes rest :=
  ofLexemes_reserved_append h _

/-- The tokens of a word with a condition behind it. -/
lemma guard_tokens_append {word : String}
    (h : word ∈ reservedWords ∧ word ≠ "global" ∧ word ≠ "local") (condition : Condition) :
    (Line.guard word condition).tokens n ++ rest =
      ⟨.keyword, word, n⟩ :: before n condition.lexemes rest :=
  ofLexemes_reserved_append h _

/-- The grammar derives a `return` with its value. -/
lemma statement_retValue {value : Expr} (h : value.isPrintable = true)
    (hrest : ∀ t ∈ rest.head?, t.isSymbol "(" = false) :
    Statement ((Line.operand "return" value).tokens n ++ rest) (.ret (some value)) rest := by
  have hvalue := expression_before value h n rest hrest
  rw [operand_tokens_append (by decide)]
  cases hlexemes : value.lexemes with
  | nil =>
    have hlt := hvalue.length_lt
    simp [hlexemes, before] at hlt
  | cons l ls =>
    rw [hlexemes] at hvalue
    exact .retValue ⟨rfl, rfl⟩ ofLexeme_line hvalue

/-- A declaration of variables stands in front of a block, with a newline token in between. -/
lemma block_cons_newline (n : Nat) {ts rest' : List Token} {s : Stmt} {body : List Stmt}
    (hstmt : Statement ts s (⟨.newline, "", n⟩ :: rest)) (hbody : Block Statement rest body rest') :
    Block Statement ts (s :: body) rest' :=
  .cons hstmt (.newline rfl hbody)

mutual

/-- A printable statement stands in front of a block. -/
lemma block_lines : (s : Stmt) → s.isPrintable = true → (n : Nat) → (rest : List Token) →
    Follows (n + s.lines.length) rest → {body : List Stmt} → {rest' : List Token} →
    Block Statement rest body rest' →
    Block Statement (Line.listTokens n s.lines ++ rest) (s :: body) rest'
  | .assign name value, h, n, rest, hrest, _, _, hbody => by
    rw [Stmt.isPrintable, Bool.and_eq_true] at h
    refine .cons ?_ hbody
    rw [Stmt.lines, listTokens_singleton, Line.tokens, Line.lexemes, List.singleton_append,
      List.singleton_append, ofLexemes_name_append h.1, before_symbol]
    exact .assign rfl rfl (expression_before value h.2 n rest hrest.not_opening)
  | .call name args, h, n, rest, _, _, _, hbody => by
    rw [Stmt.isPrintable, Bool.and_eq_true] at h
    refine .cons ?_ hbody
    rw [Stmt.lines, listTokens_singleton, Line.tokens, Line.lexemes, List.singleton_append,
      ofLexemes_name_append h.1, before_inParentheses]
    exact .call rfl rfl (separated_before args h.2 n rest) rfl
  | .declare name params body, h, n, rest, _, _, _, hbody => by
    rw [Stmt.isPrintable, Bool.and_eq_true, Bool.and_eq_true] at h
    refine .cons ?_ hbody
    rw [Stmt.lines, List.cons_append, Line.listTokens, List.append_assoc,
      listTokens_reserved_append (by decide)]
    obtain ⟨ts, htokens, hparams⟩ := exists_parameters h.1.1 h.1.2 n _
    rw [htokens]
    exact .declare ⟨rfl, rfl⟩ rfl hparams
      (block_listTokens body h.2 (n + 1) _ follows_keyword) isKeyword_self
  | .globals names, h, n, rest, _, _, _, hbody => by
    rw [Stmt.isPrintable, Bool.and_eq_true] at h
    refine block_cons_newline n ?_ hbody
    rw [Stmt.lines, listTokens_singleton, Line.tokens, Line.lexemes, List.singleton_append,
      ofLexemes_declaration_append (.inl rfl)]
    exact .globals ⟨rfl, rfl⟩ (nameList_before h.2) (by simpa using h.1)
  | .locals [], h, n, rest, _, _, _, hbody => by
    refine block_cons_newline n ?_ hbody
    rw [Stmt.lines, listTokens_singleton, Line.tokens, Line.lexemes,
      ofLexemes_declaration_append (.inr rfl)]
    exact .locals ⟨rfl, rfl⟩ (nameList_before h)
  | .locals (name :: names), h, n, rest, _, _, _, hbody => by
    rw [Stmt.isPrintable] at h
    refine block_cons_newline n ?_ hbody
    rw [Stmt.lines, listTokens_singleton, Line.tokens, Line.lexemes, List.singleton_append,
      ofLexemes_declaration_append (.inr rfl)]
    · exact .locals ⟨rfl, rfl⟩ (nameList_before h)
    · exact List.cons_ne_nil name names
  | .branch condition thenBody [], h, n, rest, _, _, _, hbody => by
    rw [Stmt.isPrintable, Bool.and_eq_true, Bool.and_eq_true] at h
    refine .cons ?_ hbody
    rw [Stmt.lines, List.cons_append, Line.listTokens, List.append_assoc,
      listTokens_reserved_append (by decide), guard_tokens_append (by decide)]
    exact .branch ⟨rfl, rfl⟩
      (comparison_before h.1.1 (follows_listTokens follows_keyword).not_opening)
      (block_listTokens thenBody h.1.2 (n + 1) _ follows_keyword) isKeyword_self
  | .branch condition thenBody (first :: later), h, n, rest, _, _, _, hbody => by
    rw [Stmt.isPrintable, Bool.and_eq_true, Bool.and_eq_true] at h
    refine .cons ?_ hbody
    have hlines : (Stmt.branch condition thenBody (first :: later)).lines =
        .guard "if" condition :: (Stmt.listLines thenBody ++ [.reserved "else"] ++
          (Stmt.listLines (first :: later) ++ [.reserved "endif"])) := by
      simp [Stmt.lines]
    rw [hlines, Line.listTokens, listTokens_append, List.append_assoc, List.append_assoc,
      listTokens_reserved_append (by decide), listTokens_reserved_append (by decide),
      guard_tokens_append (by decide)]
    exact .branchElse ⟨rfl, rfl⟩
      (comparison_before h.1.1 (follows_listTokens follows_keyword).not_opening)
      (block_listTokens thenBody h.1.2 (n + 1) _ follows_keyword) isKeyword_self
      (block_listTokens (first :: later) h.2 _ _ follows_keyword) isKeyword_self
  | .select selector cases, h, n, rest, _, _, _, hbody => by
    rw [Stmt.isPrintable, Bool.and_eq_true] at h
    refine .cons ?_ hbody
    rw [Stmt.lines, List.cons_append, Line.listTokens, List.append_assoc,
      listTokens_reserved_append (by decide), operand_tokens_append (by decide)]
    exact .select ⟨rfl, rfl⟩
      (expression_before selector h.1 n _ (follows_listTokens follows_keyword).not_opening)
      (cases_listTokens cases h.2 (n + 1) _ follows_keyword) isKeyword_self
  | .loop condition body, h, n, rest, _, _, _, hbody => by
    rw [Stmt.isPrintable, Bool.and_eq_true] at h
    refine .cons ?_ hbody
    rw [Stmt.lines, List.cons_append, Line.listTokens, List.append_assoc,
      listTokens_reserved_append (by decide), guard_tokens_append (by decide)]
    exact .loop ⟨rfl, rfl⟩ (comparison_before h.1 (follows_listTokens follows_keyword).not_opening)
      (block_listTokens body h.2 (n + 1) _ follows_keyword) isKeyword_self
  | .ret none, _, n, rest, hrest, _, _, hbody => by
    refine .cons ?_ hbody
    rw [Stmt.lines, listTokens_singleton, Line.tokens, Line.lexemes,
      ofLexemes_reserved_append (by decide)]
    refine .ret ⟨rfl, rfl⟩ fun t ht heq => ?_
    have hlt := (hrest t ht).1
    simp only [heq, Stmt.lines, List.length_singleton] at hlt
    omega
  | .ret (some value), h, n, rest, hrest, _, _, hbody => by
    rw [Stmt.isPrintable] at h
    refine .cons ?_ hbody
    rw [Stmt.lines, listTokens_singleton]
    exact statement_retValue h hrest.not_opening
  | .exitCode, _, n, rest, _, _, _, hbody => by
    refine .cons ?_ hbody
    rw [Stmt.lines, listTokens_singleton, Line.tokens, Line.lexemes,
      ofLexemes_reserved_append (by decide)]
    exact .exitCode ⟨rfl, rfl⟩

/-- **The grammar derives printable statements from their tokens.** -/
lemma block_listTokens : (statements : List Stmt) → Stmt.listIsPrintable statements = true →
    (n : Nat) → (rest : List Token) → Follows (n + (Stmt.listLines statements).length) rest →
    Block Statement (Line.listTokens n (Stmt.listLines statements) ++ rest) statements rest
  | [], _, _, _, _ => .done
  | s :: later, h, n, rest, hrest => by
    rw [Stmt.listIsPrintable, Bool.and_eq_true] at h
    rw [Stmt.listLines, List.length_append, ← Nat.add_assoc] at hrest
    rw [Stmt.listLines, listTokens_append, List.append_assoc]
    exact block_lines s h.1 n _ (follows_listTokens hrest)
      (block_listTokens later h.2 (n + s.lines.length) rest hrest)

/-- The grammar derives printable cases from their tokens. -/
lemma cases_listTokens : (cases : List CaseBlock) → CaseBlock.listIsPrintable cases = true →
    (n : Nat) → (rest : List Token) → Follows (n + (CaseBlock.listLines cases).length) rest →
    Cases (Block Statement) (Line.listTokens n (CaseBlock.listLines cases) ++ rest) cases rest
  | [], _, _, _, _ => .done
  | ⟨value, body⟩ :: later, h, n, rest, hrest => by
    rw [CaseBlock.listIsPrintable, CaseBlock.isPrintable, Bool.and_eq_true, Bool.and_eq_true] at h
    rw [CaseBlock.listLines, CaseBlock.lines, List.cons_append, List.length_cons,
      List.length_append, Nat.add_comm _ 1, ← Nat.add_assoc, ← Nat.add_assoc] at hrest
    have hfollows := follows_listTokens hrest
    rw [CaseBlock.listLines, CaseBlock.lines, List.cons_append, Line.listTokens,
      listTokens_append, List.append_assoc, List.append_assoc, operand_tokens_append (by decide)]
    exact .cons isKeyword_self
      (expression_before value h.1.1 n _ (follows_listTokens hfollows).not_opening)
      (block_listTokens body h.1.2 (n + 1) _ hfollows) (cases_listTokens later h.2 _ rest hrest)

end

end Grammar

/-! ## Whole programs -/

/-- Nothing of some lines stands behind the end of the input. -/
lemma Token.beforeEnd_listTokens (n m : Nat) (lines : List Line) :
    Token.beforeEnd (Line.listTokens n lines ++ [Token.endOfInput m]) =
      Line.listTokens n lines := by
  have hkinds : ∀ t ∈ Line.listTokens n lines, (t.kind != .eof) = true := fun t ht => by
    simpa using Line.kind_ne_eof_of_mem_listTokens ht
  rw [Token.beforeEnd, List.takeWhile_append_of_pos hkinds]
  simp [Token.endOfInput]

/-- **Loading what was printed gives it back.** If the statements have a spelling and do not nest
deeper than a parser follows them, then loading their source text gives just these statements and
no report.

**Proof sketch.** The tokens of the text are those of its lines, without a report
(`Lexed.ofSource_listSource`); from them the grammar derives the statements
(`Grammar.block_listTokens`), and the parser finds what the grammar derives
(`parseTokens_eq_iff`). -/
theorem Script.load_listSource (id : String) (statements : List Stmt)
    (hprintable : Stmt.listIsPrintable statements = true)
    (hnesting : Stmt.listNesting statements ≤ Parser.nestingLimit) :
    Script.load id (Stmt.listSource statements) = ⟨id, statements, []⟩ := by
  have hblock := block_listTokens statements hprintable 1 [] (by simp [Follows])
  rw [List.append_nil] at hblock
  have hparse : parseTokens (Lexed.ofSource (Stmt.listSource statements)).tokens =
      (statements, []) := by
    rw [parseTokens_eq_iff, Lexed.ofSource_listSource hprintable, Token.beforeEnd_listTokens]
    exact ⟨hblock, hnesting⟩
  simp only [Script.load, hparse]
  rw [Lexed.ofSource_listSource hprintable]
  rfl

/-- Names with an equals sign, a slash or a capitalised reserved word in them, a text with
symbols, a `return` at the end of a block, an empty block in front of an `else`, and calls inside
calls. -/
theorem Script.load_listSource_intricate :
    let program : List Stmt :=
      [.globals ["a=b", "/x/"],
        .declare "Return" ["p", "EndIf"]
          [.locals [],
            .branch (.equals (.call "f" [.var "p", .call "g" []]) (.number "007")) []
              [.ret none],
            .loop (.equals (.var "/x/") (.bool true)) [.ret (some (.string "(a, \r/ = b)"))]],
        .select (.var "a=b") [⟨.string "", [.exitCode]⟩, ⟨.number "1", []⟩],
        .declare "h" [] [.assign "a=b" (.var "p"), .call "f" []]]
    Stmt.listSource program =
        "global a=b, /x/\ncode Return(p, EndIf)\nlocal\nif f(p, g()) = 007\nelse\nreturn\n" ++
          "endif\nwhile /x/ = true\nreturn \"(a, \r/ = b)\"\nendwhile\nendcode\n" ++
          "switch a=b\ncase \"\"\nexitcode\ncase 1\nendswitch\ncode h\na=b = p\nf()\nendcode\n" ∧
      Script.load "intricate" (Stmt.listSource program) = ⟨"intricate", program, []⟩ := by
  intro program
  exact ⟨by decide +kernel, Script.load_listSource "intricate" program (by decide) (by decide)⟩

end DialogueScript
