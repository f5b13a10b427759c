import DialogueScript.Proofs.Parser.Words
import DialogueScript.Proofs.Printing.RoundTrip
import DialogueScript.Proofs.Token.Pieces

set_option autoImplicit false

/-!
# The programs that can be loaded

Whatever is wrong with a source text, what is kept of it could have been written down without a
fault, but for the sides that a condition may lack. The tokens of a text have texts that tokens of
their kind can have, because the lexemes of a line are pieces of it; a program is made of the words
of its tokens; and a program that was read without a report has all sides of its conditions, because
the grammar has no rule for half a condition.

## Main definitions

* `DialogueScript.TokenKind.Spelling` — the texts that tokens of a kind can have.

## Main results

* `DialogueScript.Text.isName_iff` — names are what is read as a name.
* `DialogueScript.Token.spelling_of_mem_ofSource` — tokens have the texts that they can have.
* `DialogueScript.Grammar.Block.isPrintable` — derived programs can be printed.
* `DialogueScript.Script.load_spelled` — what can be loaded.
-/

namespace DialogueScript

/-! ## Tokens -/

namespace Token

/-- A chunk that is sorted as a name is one. -/
lemma isName_of_ofChunk {line : Nat} {cs : List Char} (hsolid : Text.isSolid cs = true)
    (hkind : (ofChunk line cs).kind = .identifier) :
    Text.isName (ofChunk line cs).text = true := by
  revert hkind
  simp only [ofChunk]
  split
  · simp
  split
  · simp
  split
  · simp
  split
  · simp
  · simp_all [Text.isName]

/-- A name is read as one name. -/
lemma ofLine_name {name : String} (h : Text.isName name = true) (line : Nat) :
    ofLine line name.toList = [⟨.identifier, name, line⟩] := by
  have htokens : (Lexeme.ofLine name.toList).map (ofLexeme line) =
      [⟨.identifier, name, line⟩] := by
    rw [(spells_name h).ofLine_eq, List.map_singleton, ofLexeme_name h]
  have hreserved : name ≠ "global" ∧ name ≠ "local" := by
    constructor <;> (rintro rfl; exact absurd h (by decide))
  simp [ofLine, htokens, startsDeclaration, hreserved]

end Token

/-- **Names are what is read as a name**: one token of that kind, and nothing else. -/
lemma Text.isName_iff {name : String} :
    isName name = true ↔ ∀ line, Token.ofLine line name.toList = [⟨.identifier, name, line⟩] := by
  refine ⟨fun h => Token.ofLine_name h, fun h => ?_⟩
  -- The token comes from a chunk of the text, and the chunk is what was sorted as a name.
  have hmem : (⟨.identifier, name, 1⟩ : Token) ∈ Token.ofLine 1 name.toList := by simp [h]
  rcases Token.mem_ofLine hmem with ⟨lexeme, hlexeme, heq⟩ | hnewline
  · cases lexeme with
    | symbol c => cases heq
    | quoted text closed => cases heq
    | chunk text =>
      have hchunk : Token.ofChunk 1 text = ⟨.identifier, name, 1⟩ := heq.symm
      have hname := Token.isName_of_ofChunk (Lexeme.isSolid_of_mem_ofLine hlexeme) (by rw [hchunk])
      rwa [hchunk] at hname
  · cases hnewline

/-- The texts that tokens of a kind can have. A name is what the lexer reads as a name, and nothing
is said about the kinds that leave no trace in a program. -/
def TokenKind.Spelling : TokenKind → String → Prop
  | .identifier, text => ∀ line, Token.ofLine line text.toList = [⟨.identifier, text, line⟩]
  | .string, text => LiteralKind.isSpelling .string text = true
  | .number, text => LiteralKind.isSpelling .number text = true
  | .boolean, text => LiteralKind.isSpelling .boolean text = true
  | .keyword, _ | .symbol, _ | .newline, _ | .eof, _ => True

namespace Token

/-- A word that is `true` or `false` in any case is one of them in small letters. -/
lemma isSpelling_boolean {cs : List Char}
    (h : Text.isOneOfFolded (String.ofList cs) ["true", "false"] = true) :
    LiteralKind.isSpelling .boolean (String.ofList (Text.foldCase cs)) = true := by
  simp only [Text.isOneOfFolded, Text.sameFolded, List.any_cons, List.any_nil, Bool.or_false,
    Bool.or_eq_true, beq_iff_eq, String.toList_ofList] at h
  rcases h with h | h
  · rw [h]
    decide
  · rw [h]
    decide

/-- **Sorting a chunk** gives it a kind that it can have. -/
lemma spelling_ofChunk (line : Nat) {cs : List Char} (h : Text.isSolid cs = true) :
    (ofChunk line cs).kind.Spelling (ofChunk line cs).text := by
  have hne : cs ≠ [] := by
    rintro rfl
    simp [Text.isSolid] at h
  have hname : (ofChunk line cs).kind = .identifier → Text.isName (ofChunk line cs).text = true :=
    isName_of_ofChunk h
  revert hname
  simp only [ofChunk]
  split
  · next hboolean => exact fun _ => isSpelling_boolean hboolean
  split
  · exact fun _ => trivial
  split
  · next hdigits =>
    intro _
    simpa [TokenKind.Spelling, LiteralKind.isSpelling, hne] using hdigits
  split
  · exact fun _ => trivial
  · exact fun hname => Text.isName_iff.mp (hname rfl)

/-- A token that is read on a line has a text that tokens of its kind can have. -/
lemma spelling_of_mem_ofLine {n : Nat} {line : List Char} {t : Token} (hline : '\n' ∉ line)
    (ht : t ∈ ofLine n line) : t.kind.Spelling t.text := by
  rcases mem_ofLine ht with ⟨lexeme, hlexeme, rfl⟩ | hnewline
  · cases lexeme with
    | symbol c => trivial
    | chunk text => exact spelling_ofChunk n (Lexeme.isSolid_of_mem_ofLine hlexeme)
    | quoted text closed => exact Lexeme.isSpelling_of_mem_ofLine hline hlexeme
  · rw [hnewline]
    trivial

/-- **The tokens of a source text have texts that they can have.** -/
lemma spelling_of_mem_ofSource {source : String} {t : Token}
    (ht : t ∈ (Lexed.ofSource source).tokens) : t.kind.Spelling t.text := by
  rcases Lexed.mem_tokens ht with ⟨n, line, hline, hmem⟩ | heof
  · exact spelling_of_mem_ofLine (Text.lineFeed_notMem_of_mem_lines hline) hmem
  · rw [heof]
    trivial

end Token

/-! ## Expressions -/

/-- Expressions can be printed exactly if each of them can. -/
lemma Expr.listIsPrintable_iff {es : List Expr} :
    Expr.listIsPrintable es = true ↔ ∀ e ∈ es, e.isPrintable = true := by
  induction es with
  | nil => simp [Expr.listIsPrintable]
  | cons e es ih => simp [Expr.listIsPrintable, ih]

/-- What is made of such words can be printed. -/
lemma Expr.MadeOf.isPrintable {e : Expr} (h : e.MadeOf TokenKind.Spelling) :
    e.isPrintable = true := by
  induction h with
  | @literal kind text htext =>
    cases kind with
    | string => exact htext
    | number => exact htext
    | boolean => exact htext
  | var hname => exact Text.isName_iff.mpr hname
  | call hname _ ih =>
    rw [Expr.isPrintable, Bool.and_eq_true]
    exact ⟨Text.isName_iff.mpr hname, Expr.listIsPrintable_iff.mpr ih⟩

/-- Expressions that are made of the texts of tokens can be printed. -/
lemma listIsPrintable_of_madeOf {es : List Expr} (h : ∀ e ∈ es, e.MadeOf TokenKind.Spelling) :
    Expr.listIsPrintable es = true :=
  Expr.listIsPrintable_iff.mpr fun e he => (h e he).isPrintable

/-- The texts of identifiers are names. -/
lemma all_isName {names : List String} (h : ∀ name ∈ names, TokenKind.Spelling .identifier name) :
    names.all Text.isName = true :=
  List.all_eq_true.mpr fun name hname => Text.isName_iff.mpr (h name hname)

/-! ## Derived programs -/

namespace Grammar

/-- A condition that the grammar derives has both sides. -/
lemma Comparison.isPrintable {ts rest : List Token} {condition : Condition}
    (h : Comparison ts condition rest) (hmade : condition.MadeOf TokenKind.Spelling) :
    condition.isPrintable = true := by
  obtain ⟨-, -, -⟩ := h
  rw [Condition.equals, Condition.compare, Condition.isPrintable, Bool.and_eq_true]
  exact ⟨(hmade.left _ rfl).isPrintable, (hmade.right _ rfl).isPrintable⟩

mutual

/-- A statement that the grammar derives can be printed, if it is made of words that can. -/
lemma Statement.isPrintable {ts rest : List Token} {s : Stmt} :
    Statement ts s rest → s.MadeOf TokenKind.Spelling → s.isPrintable = true
  | .assign _ _ _, .assign hname hvalue => by
    simp [Stmt.isPrintable, Text.isName_iff.mpr hname, hvalue.isPrintable]
  | .call _ _ _ _, .call hname hargs => by
    simp [Stmt.isPrintable, Text.isName_iff.mpr hname, listIsPrintable_of_madeOf hargs]
  | .declare _ _ _ hbody _, .declare hname hparams hmade => by
    have hprintable := Block.isPrintable hbody hmade
    simp only [Stmt.isPrintable, Text.isName_iff.mpr hname, all_isName hparams, hprintable,
      Bool.and_self]
  | .globals _ _ _, .globals hne hnames => by
    simp only [Stmt.isPrintable, all_isName hnames, List.isEmpty_eq_false_iff.mpr hne,
      Bool.not_false, Bool.and_self]
  | .locals _ _, .locals hnames => all_isName hnames
  | .exitCode _, .exitCode => rfl
  | .branch _ hcondition hthen _, .branch hguard hmade _ => by
    have hprintable := Block.isPrintable hthen hmade
    simp only [Stmt.isPrintable, hcondition.isPrintable hguard, hprintable, Stmt.listIsPrintable,
      Bool.and_self]
  | .branchElse _ hcondition hthen _ helse _, .branch hguard hmade hmadeElse => by
    have hprintable := Block.isPrintable hthen hmade
    have hprintableElse := Block.isPrintable helse hmadeElse
    simp only [Stmt.isPrintable, hcondition.isPrintable hguard, hprintable, hprintableElse,
      Bool.and_self]
  | .select _ _ hcases _, .select hselector hvalues hbodies => by
    have hprintable := Cases.isPrintable hcases hvalues hbodies
    simp only [Stmt.isPrintable, hselector.isPrintable, hprintable, Bool.and_self]
  | .loop _ hcondition hbody _, .loop hguard hmade => by
    have hprintable := Block.isPrintable hbody hmade
    simp only [Stmt.isPrintable, hcondition.isPrintable hguard, hprintable, Bool.and_self]
  | .ret _ _, _ => rfl
  | .retValue _ _ _, .ret hvalue => (hvalue _ rfl).isPrintable

/-- So can a block. -/
lemma Block.isPrintable {ts rest : List Token} {body : List Stmt} :
    Block Statement ts body rest → (∀ s ∈ body, s.MadeOf TokenKind.Spelling) →
      Stmt.listIsPrintable body = true
  | .done, _ => rfl
  | .newline _ hbody, hmade => Block.isPrintable hbody hmade
  | .cons hstmt hbody, hmade => by
    have hfirst := Statement.isPrintable hstmt (hmade _ List.mem_cons_self)
    have hlater := Block.isPrintable hbody fun s hs => hmade s (List.mem_cons_of_mem _ hs)
    simp only [Stmt.listIsPrintable, hfirst, hlater, Bool.and_self]

/-- So can the cases of a choice. -/
lemma Cases.isPrintable {ts rest : List Token} {cases : List CaseBlock} :
    Cases (Block Statement) ts cases rest →
      (∀ block ∈ cases, block.value.MadeOf TokenKind.Spelling) →
      (∀ block ∈ cases, ∀ s ∈ block.body, s.MadeOf TokenKind.Spelling) →
      CaseBlock.listIsPrintable cases = true
  | .done, _, _ => rfl
  | .cons _ _ hbody hcases, hvalues, hbodies => by
    have hvalue := (hvalues _ List.mem_cons_self).isPrintable
    have hfirst := Block.isPrintable hbody (hbodies _ List.mem_cons_self)
    have hlater := Cases.isPrintable hcases
      (fun block hblock => hvalues block (List.mem_cons_of_mem _ hblock))
      fun block hblock => hbodies block (List.mem_cons_of_mem _ hblock)
    simp only [CaseBlock.listIsPrintable, CaseBlock.isPrintable, hvalue, hfirst, hlater,
      Bool.and_self]

end

end Grammar

/-! ## Scripts -/

/-- **What can be loaded.** From any source text, whatever is wrong with it, loading gives a program
without comparisons outside conditions; its conditions compare for equality and have no right side
without a left one; its literals have texts that literals of their sort can have; its variables,
functions, parameters and declared names are what the lexer reads as names; and every declaration of
global variables has a name in it. If nothing is wrong, every condition has both sides, so that the
program can be printed.

**Proof sketch.** The tokens of the text are spelled as they can be (`spelling_of_mem_ofSource`), so
the program is made of such words (`madeOf_parseTokens`). Without a report it derives from the
grammar, and then it can be printed (`Grammar.Block.isPrintable`). -/
theorem Script.load_spelled (id source : String) :
    (∀ s ∈ (Script.load id source).statements, s.MadeOf TokenKind.Spelling) ∧
      ((Script.load id source).errors = [] →
        Stmt.listIsPrintable (Script.load id source).statements = true) := by
  have hmade : ∀ s ∈ (Script.load id source).statements, s.MadeOf TokenKind.Spelling :=
    madeOf_parseTokens fun _ ht => Token.spelling_of_mem_ofSource ht
  refine ⟨hmade, fun herrors => ?_⟩
  have hclean : (parseTokens (Lexed.ofSource source).tokens).2 = [] :=
    (List.append_eq_nil_iff.mp herrors).2
  obtain ⟨hprogram, -⟩ := parseTokens_eq_iff.mp (Prod.ext rfl hclean)
  exact Grammar.Block.isPrintable hprogram hmade

/-- A condition that was cut short is kept without its right side, which has no spelling. Written
out, it has both sides. -/
theorem Script.load_spelled_condition :
    let cut := Script.load "s" "if x\nsay(\"a / b\")\nendif"
    let whole := Script.load "s" "if x = 10 // or so\nsay(\"a / b\")\nendif"
    (∀ s ∈ cut.statements, s.MadeOf TokenKind.Spelling) ∧
      Stmt.listIsPrintable cut.statements = false ∧
      Stmt.listSource whole.statements = "if x = 10\nsay(\"a / b\")\nendif\n" ∧
      Stmt.listIsPrintable whole.statements = true := by
  intro cut whole
  have hclean : whole.errors = [] := by decide +kernel
  exact ⟨(Script.load_spelled _ _).1, by decide +kernel, by decide +kernel,
    (Script.load_spelled _ _).2 hclean⟩

end DialogueScript
