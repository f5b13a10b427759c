import DialogueScript.Proofs.Parser.Acceptance

set_option autoImplicit false

/-!
# The grammar

The language as a set of rules, independent of how a parser goes about it. Each rule relates the
tokens it begins at, the tree it builds and the tokens behind it, so that the few conditions on
what follows can be stated: a variable is not followed by an opening parenthesis, a list of
declared names ends only where neither a name nor a comma follows, and a `return` has a value
exactly if the next token stands on its line.

    program   ::= block
    block     ::= (statement | NEWLINE)*
    statement ::= "code" NAME ["(" names ")"] block "endcode"
                | "global" list | "local" list | "exitcode"
                | "if" condition block ["else" block] "endif"
                | "switch" expr ("case" expr block)* "endswitch"
                | "while" condition block "endwhile"
                | "return" [expr] | NAME "=" expr | NAME "(" args ")"
    list      ::= (NAME | ",")*
    names     ::= [NAME ("," NAME)* [","]]
    args      ::= [expr ("," expr)* [","]]
    condition ::= expr "=" expr
    expr      ::= NAME "(" args ")" | NAME | STRING | NUMBER | BOOLEAN

The words that begin a statement are spelled in small letters; those that end or divide a block
may be spelled in any case.

## Main definitions

* `DialogueScript.Grammar.Expression`, `DialogueScript.Grammar.Statement` — the rules.
* `DialogueScript.Grammar.Block` — sequences of statements, and so whole programs.
* `DialogueScript.Stmt.nesting` — how many blocks and calls lie inside each other.
* `DialogueScript.Stmt.words`, `DialogueScript.Token.words` — the names and literals of a
  statement and of some tokens.

## Main results

* `DialogueScript.Grammar.Statement.length_lt` — a statement takes at least one token.
* `DialogueScript.Grammar.Block.words_eq` — no name and no literal among the tokens is lost.
-/

namespace DialogueScript

/-- The token is the given reserved word, spelled just so. -/
def Token.IsWord (token : Token) (word : String) : Prop :=
  token.kind = .keyword ∧ token.text = word

namespace Grammar

/-! ## Rules -/

/-- A name. -/
inductive Name : List Token → String → List Token → Prop
  | mk {name : Token} {rest : List Token} (hname : name.kind = .identifier) :
      Name (name :: rest) name.text rest

/-- An expression. -/
inductive Expression : List Token → Expr → List Token → Prop
  | string {t : Token} {rest : List Token} (ht : t.kind = .string) :
      Expression (t :: rest) (.literal .string t.text) rest
  | number {t : Token} {rest : List Token} (ht : t.kind = .number) :
      Expression (t :: rest) (.literal .number t.text) rest
  | boolean {t : Token} {rest : List Token} (ht : t.kind = .boolean) :
      Expression (t :: rest) (.literal .boolean t.text) rest
  | var {name : Token} {rest : List Token} (hname : name.kind = .identifier)
      (hrest : ∀ t ∈ rest.head?, t.isSymbol "(" = false) :
      Expression (name :: rest) (.var name.text) rest
  | call {name opening closing : Token} {ts rest : List Token} {args : List Expr}
      (hname : name.kind = .identifier) (hopening : opening.isSymbol "(" = true)
      (hargs : Reading.Separated Expression ts args (closing :: rest))
      (hclosing : closing.isSymbol ")" = true) :
      Expression (name :: opening :: ts) (.call name.text args) rest

/-- A condition. -/
inductive Comparison : List Token → Condition → List Token → Prop
  | mk {ts mid rest : List Token} {equals : Token} {left right : Expr}
      (hleft : Expression ts left (equals :: mid)) (hequals : equals.isSymbol "=" = true)
      (hright : Expression mid right rest) :
      Comparison ts (Condition.equals left right) rest

/-- A run of names and commas that cannot be continued. -/
inductive NameList : List Token → List String → List Token → Prop
  | done {rest : List Token}
      (hrest : ∀ t ∈ rest.head?, t.kind ≠ .identifier ∧ t.isSymbol "," = false) :
      NameList rest [] rest
  | name {name : Token} {ts rest : List Token} {names : List String}
      (hname : name.kind = .identifier) (hnames : NameList ts names rest) :
      NameList (name :: ts) (name.text :: names) rest
  | comma {comma : Token} {ts rest : List Token} {names : List String}
      (hcomma : comma.isSymbol "," = true) (hnames : NameList ts names rest) :
      NameList (comma :: ts) names rest

/-- The parameters of a declaration, which may be missing altogether. -/
inductive Parameters : List Token → List String → List Token → Prop
  | absent {ts : List Token} : Parameters ts [] ts
  | present {opening closing : Token} {ts rest : List Token} {params : List String}
      (hopening : opening.isSymbol "(" = true)
      (hparams : Reading.Separated Name ts params (closing :: rest))
      (hclosing : closing.isSymbol ")" = true) :
      Parameters (opening :: ts) params rest

/-- A sequence of statements and newline tokens. -/
inductive Block (statement : Reading Stmt) : List Token → List Stmt → List Token → Prop
  | done {ts : List Token} : Block statement ts [] ts
  | newline {t : Token} {ts rest : List Token} {body : List Stmt} (ht : t.kind = .newline)
      (hbody : Block statement ts body rest) : Block statement (t :: ts) body rest
  | cons {ts mid rest : List Token} {stmt : Stmt} {body : List Stmt}
      (hstmt : statement ts stmt mid) (hbody : Block statement mid body rest) :
      Block statement ts (stmt :: body) rest

/-- The cases of a `switch`. -/
inductive Cases (block : Reading (List Stmt)) :
    List Token → List CaseBlock → List Token → Prop
  | done {ts : List Token} : Cases block ts [] ts
  | cons {word : Token} {ts mid mid' rest : List Token} {value : Expr} {body : List Stmt}
      {cases : List CaseBlock} (hword : word.isKeyword "case" = true)
      (hvalue : Expression ts value mid) (hbody : block mid body mid')
      (hcases : Cases block mid' cases rest) :
      Cases block (word :: ts) (⟨value, body⟩ :: cases) rest

/-- A statement. -/
inductive Statement : List Token → Stmt → List Token → Prop
  | assign {name equals : Token} {ts rest : List Token} {value : Expr}
      (hname : name.kind = .identifier) (hequals : equals.isSymbol "=" = true)
      (hvalue : Expression ts value rest) :
      Statement (name :: equals :: ts) (.assign name.text value) rest
  | call {name opening closing : Token} {ts rest : List Token} {args : List Expr}
      (hname : name.kind = .identifier) (hopening : opening.isSymbol "(" = true)
      (hargs : Reading.Separated Expression ts args (closing :: rest))
      (hclosing : closing.isSymbol ")" = true) :
      Statement (name :: opening :: ts) (.call name.text args) rest
  | declare {word name closing : Token} {ts mid rest : List Token} {params : List String}
      {body : List Stmt} (hword : word.IsWord "code") (hname : name.kind = .identifier)
      (hparams : Parameters ts params mid) (hbody : Block Statement mid body (closing :: rest))
      (hclosing : closing.isKeyword "endcode" = true) :
      Statement (word :: name :: ts) (.declare name.text params body) rest
  | globals {word : Token} {ts rest : List Token} {names : List String}
      (hword : word.IsWord "global") (hnames : NameList ts names rest) (hsome : names ≠ []) :
      Statement (word :: ts) (.globals names) rest
  | locals {word : Token} {ts rest : List Token} {names : List String}
      (hword : word.IsWord "local") (hnames : NameList ts names rest) :
      Statement (word :: ts) (.locals names) rest
  | exitCode {word : Token} {rest : List Token} (hword : word.IsWord "exitcode") :
      Statement (word :: rest) .exitCode rest
  | branch {word closing : Token} {ts mid rest : List Token} {condition : Condition}
      {thenBody : List Stmt} (hword : word.IsWord "if")
      (hcondition : Comparison ts condition mid)
      (hthen : Block Statement mid thenBody (closing :: rest))
      (hclosing : closing.isKeyword "endif" = true) :
      Statement (word :: ts) (.branch condition thenBody []) rest
  | branchElse {word divider closing : Token} {ts mid mid' rest : List Token}
      {condition : Condition} {thenBody elseBody : List Stmt} (hword : word.IsWord "if")
      (hcondition : Comparison ts condition mid)
      (hthen : Block Statement mid thenBody (divider :: mid'))
      (hdivider : divider.isKeyword "else" = true)
      (helse : Block Statement mid' elseBody (closing :: rest))
      (hclosing : closing.isKeyword "endif" = true) :
      Statement (word :: ts) (.branch condition thenBody elseBody) rest
  | select {word closing : Token} {ts mid rest : List Token} {selector : Expr}
      {cases : List CaseBlock} (hword : word.IsWord "switch")
      (hselector : Expression ts selector mid)
      (hcases : Cases (Block Statement) mid cases (closing :: rest))
      (hclosing : closing.isKeyword "endswitch" = true) :
      Statement (word :: ts) (.select selector cases) rest
  | loop {word closing : Token} {ts mid rest : List Token} {condition : Condition}
      {body : List Stmt} (hword : word.IsWord "while")
      (hcondition : Comparison ts condition mid)
      (hbody : Block Statement mid body (closing :: rest))
      (hclosing : closing.isKeyword "endwhile" = true) :
      Statement (word :: ts) (.loop condition body) rest
  | ret {word : Token} {rest : List Token} (hword : word.IsWord "return")
      (hrest : ∀ t ∈ rest.head?, t.line ≠ word.line) :
      Statement (word :: rest) (.ret none) rest
  | retValue {word first : Token} {ts rest : List Token} {value : Expr}
      (hword : word.IsWord "return") (hline : first.line = word.line)
      (hvalue : Expression (first :: ts) value rest) :
      Statement (word :: first :: ts) (.ret (some value)) rest

/-- A whole program: a block with nothing behind it. -/
def Program (ts : List Token) (statements : List Stmt) : Prop :=
  Block Statement ts statements []

/-! ## Every rule takes tokens -/

mutual

/-- An expression takes at least one token. -/
lemma Expression.length_lt {ts rest : List Token} {e : Expr} :
    Expression ts e rest → rest.length < ts.length
  | .string _ => by simp
  | .number _ => by simp
  | .boolean _ => by simp
  | .var _ _ => by simp
  | .call _ _ hargs _ => by
    have := Expression.separated_length_le hargs
    simp only [List.length_cons] at this ⊢
    omega

/-- Expressions with commas do not put tokens back. -/
lemma Expression.separated_length_le {ts rest : List Token} {es : List Expr} :
    Reading.Separated Expression ts es rest → rest.length ≤ ts.length
  | .nil => Nat.le_refl _
  | .last ha => Nat.le_of_lt (Expression.length_lt ha)
  | .more ha _ has => by
    have h₁ := Expression.length_lt ha
    have h₂ := Expression.separated_length_le has
    simp only [List.length_cons] at h₁
    omega

end

/-- A condition takes at least one token. -/
lemma Comparison.length_lt {ts rest : List Token} {condition : Condition}
    (h : Comparison ts condition rest) : rest.length < ts.length := by
  obtain ⟨hleft, -, hright⟩ := h
  have h₁ := hleft.length_lt
  have h₂ := hright.length_lt
  simp only [List.length_cons] at h₁
  omega

/-- A list of names does not put tokens back. -/
lemma NameList.length_le {ts rest : List Token} {names : List String}
    (h : NameList ts names rest) : rest.length ≤ ts.length := by
  induction h with
  | done _ => exact Nat.le_refl _
  | name _ _ ih => exact Nat.le_succ_of_le ih
  | comma _ _ ih => exact Nat.le_succ_of_le ih

/-- Names with commas do not put tokens back. -/
lemma Name.separated_length_le {ts rest : List Token} {names : List String}
    (h : Reading.Separated Name ts names rest) : rest.length ≤ ts.length := by
  induction h with
  | nil => exact Nat.le_refl _
  | last ha =>
    obtain ⟨_⟩ := ha
    simp
  | more ha _ _ ih =>
    obtain ⟨_⟩ := ha
    simp only [List.length_cons]
    omega

/-- Parameters do not put tokens back. -/
lemma Parameters.length_le {ts rest : List Token} {params : List String}
    (h : Parameters ts params rest) : rest.length ≤ ts.length := by
  cases h with
  | absent => exact Nat.le_refl _
  | present _ hparams _ =>
    have := Name.separated_length_le hparams
    simp only [List.length_cons] at this ⊢
    omega

mutual

/-- A statement takes at least one token. -/
lemma Statement.length_lt {ts rest : List Token} {s : Stmt} :
    Statement ts s rest → rest.length < ts.length
  | .assign _ _ hvalue => by
    have := hvalue.length_lt
    simp only [List.length_cons]
    omega
  | .call _ _ hargs _ => by
    have := Expression.separated_length_le hargs
    simp only [List.length_cons] at this ⊢
    omega
  | .declare _ _ hparams hbody _ => by
    have h₁ := hparams.length_le
    have h₂ := Block.length_le hbody
    simp only [List.length_cons] at h₂ ⊢
    omega
  | .globals _ hnames _ => Nat.lt_succ_of_le hnames.length_le
  | .locals _ hnames => Nat.lt_succ_of_le hnames.length_le
  | .exitCode _ => by simp
  | .branch _ hcondition hthen _ => by
    have h₁ := hcondition.length_lt
    have h₂ := Block.length_le hthen
    simp only [List.length_cons] at h₂ ⊢
    omega
  | .branchElse _ hcondition hthen _ helse _ => by
    have h₁ := hcondition.length_lt
    have h₂ := Block.length_le hthen
    have h₃ := Block.length_le helse
    simp only [List.length_cons] at h₂ h₃ ⊢
    omega
  | .select _ hselector hcases _ => by
    have h₁ := hselector.length_lt
    have h₂ := Cases.length_le hcases
    simp only [List.length_cons] at h₂ ⊢
    omega
  | .loop _ hcondition hbody _ => by
    have h₁ := hcondition.length_lt
    have h₂ := Block.length_le hbody
    simp only [List.length_cons] at h₂ ⊢
    omega
  | .ret _ _ => by simp
  | .retValue _ _ hvalue => by
    have := hvalue.length_lt
    simp only [List.length_cons] at this ⊢
    omega

/-- A block does not put tokens back. -/
lemma Block.length_le {ts rest : List Token} {body : List Stmt} :
    Block Statement ts body rest → rest.length ≤ ts.length
  | .done => Nat.le_refl _
  | .newline _ hbody => Nat.le_succ_of_le (Block.length_le hbody)
  | .cons hstmt hbody => by
    have h₁ := Statement.length_lt hstmt
    have h₂ := Block.length_le hbody
    omega

/-- Cases do not put tokens back. -/
lemma Cases.length_le {ts rest : List Token} {cases : List CaseBlock} :
    Cases (Block Statement) ts cases rest → rest.length ≤ ts.length
  | .done => Nat.le_refl _
  | .cons _ hvalue hbody hcases => by
    have h₁ := hvalue.length_lt
    have h₂ := Block.length_le hbody
    have h₃ := Cases.length_le hcases
    simp only [List.length_cons]
    omega

end

/-! ## What a rule begins with -/

/-- The kinds of tokens with which an expression begins. -/
def beginsExpression : TokenKind → Bool
  | .identifier | .string | .number | .boolean => true
  | _ => false

/-- An expression begins with a name or a literal. -/
lemma Expression.begins {t : Token} {ts rest : List Token} {e : Expr}
    (h : Expression (t :: ts) e rest) : beginsExpression t.kind = true := by
  cases h with
  | string ht => simp [ht, beginsExpression]
  | number ht => simp [ht, beginsExpression]
  | boolean ht => simp [ht, beginsExpression]
  | var hname _ => simp [hname, beginsExpression]
  | call hname _ _ _ => simp [hname, beginsExpression]

/-- The words with which a statement begins. -/
def statementWords : List String :=
  ["code", "global", "local", "exitcode", "if", "switch", "while", "return"]

/-- A statement begins with a name or with one of the words for it. -/
lemma Statement.begins {t : Token} {ts rest : List Token} {s : Stmt}
    (h : Statement (t :: ts) s rest) :
    t.kind = .identifier ∨ t.kind = .keyword ∧ t.text ∈ statementWords := by
  cases h with
  | assign hname _ _ => exact .inl hname
  | call hname _ _ _ => exact .inl hname
  | declare hword _ _ _ _ => exact .inr ⟨hword.1, by simp [hword.2, statementWords]⟩
  | globals hword _ _ => exact .inr ⟨hword.1, by simp [hword.2, statementWords]⟩
  | locals hword _ => exact .inr ⟨hword.1, by simp [hword.2, statementWords]⟩
  | exitCode hword => exact .inr ⟨hword.1, by simp [hword.2, statementWords]⟩
  | branch hword _ _ _ => exact .inr ⟨hword.1, by simp [hword.2, statementWords]⟩
  | branchElse hword _ _ _ _ _ => exact .inr ⟨hword.1, by simp [hword.2, statementWords]⟩
  | select hword _ _ _ => exact .inr ⟨hword.1, by simp [hword.2, statementWords]⟩
  | loop hword _ _ _ => exact .inr ⟨hword.1, by simp [hword.2, statementWords]⟩
  | ret hword _ => exact .inr ⟨hword.1, by simp [hword.2, statementWords]⟩
  | retValue hword _ _ => exact .inr ⟨hword.1, by simp [hword.2, statementWords]⟩

end Grammar

/-! ## Nesting -/

mutual

/-- How many calls lie inside each other in an expression. -/
def Expr.nesting : Expr → Nat
  | .literal _ _ => 0
  | .var _ => 0
  | .call _ args => Expr.listNesting args + 1
  | .binary left _ right => max (Expr.optionNesting left) (Expr.optionNesting right)

/-- How many calls lie inside each other in some expressions. -/
def Expr.listNesting : List Expr → Nat
  | [] => 0
  | expr :: later => max expr.nesting (Expr.listNesting later)

/-- How many calls lie inside each other in an expression that may be missing. -/
def Expr.optionNesting : Option Expr → Nat
  | none => 0
  | some expr => expr.nesting

end

/-- How many calls lie inside each other in a condition. -/
def Condition.nesting (condition : Condition) : Nat :=
  max (Expr.optionNesting condition.left) (Expr.optionNesting condition.right)

mutual

/-- How many blocks and call expressions lie inside each other in a statement. A branch counts
once for both of its blocks, and a call statement is no call expression. -/
def Stmt.nesting : Stmt → Nat
  | .assign _ value => value.nesting
  | .call _ args => Expr.listNesting args
  | .declare _ _ body => Stmt.listNesting body + 1
  | .globals _ => 0
  | .locals _ => 0
  | .branch condition thenBody elseBody =>
    max condition.nesting (max (Stmt.listNesting thenBody) (Stmt.listNesting elseBody) + 1)
  | .select selector cases => max selector.nesting (CaseBlock.listNesting cases)
  | .loop condition body => max condition.nesting (Stmt.listNesting body + 1)
  | .ret value => Expr.optionNesting value
  | .exitCode => 0

/-- How many blocks and call expressions lie inside each other in some statements. -/
def Stmt.listNesting : List Stmt → Nat
  | [] => 0
  | stmt :: later => max stmt.nesting (Stmt.listNesting later)

/-- How many blocks and call expressions lie inside each other in a case. -/
def CaseBlock.nesting : CaseBlock → Nat
  | ⟨value, body⟩ => max value.nesting (Stmt.listNesting body + 1)

/-- How many blocks and call expressions lie inside each other in some cases. -/
def CaseBlock.listNesting : List CaseBlock → Nat
  | [] => 0
  | block :: later => max block.nesting (CaseBlock.listNesting later)

end

/-! ## Names and literals -/

/-- The kind of the tokens that spell a literal. -/
def LiteralKind.tokenKind : LiteralKind → TokenKind
  | .string => .string
  | .number => .number
  | .boolean => .boolean

/-- What a token says: the kind and text of a name or a literal. Reserved words, symbols and
newlines only arrange what the others say. -/
def Token.word? (token : Token) : Option (TokenKind × String) :=
  if Grammar.beginsExpression token.kind then some (token.kind, token.text) else none

/-- The names and literals among some tokens, in order. -/
def Token.words (ts : List Token) : List (TokenKind × String) :=
  ts.filterMap Token.word?

/-- Names as words. -/
def nameWords (names : List String) : List (TokenKind × String) :=
  names.map fun name => (.identifier, name)

mutual

/-- The names and literals in an expression, in the order of the source. -/
def Expr.words : Expr → List (TokenKind × String)
  | .literal kind text => [(kind.tokenKind, text)]
  | .var name => [(.identifier, name)]
  | .call name args => (.identifier, name) :: Expr.listWords args
  | .binary left _ right => Expr.optionWords left ++ Expr.optionWords right

/-- The names and literals in some expressions. -/
def Expr.listWords : List Expr → List (TokenKind × String)
  | [] => []
  | expr :: later => expr.words ++ Expr.listWords later

/-- The names and literals in an expression that may be missing. -/
def Expr.optionWords : Option Expr → List (TokenKind × String)
  | none => []
  | some expr => expr.words

end

/-- The names and literals in a condition. -/
def Condition.words (condition : Condition) : List (TokenKind × String) :=
  Expr.optionWords condition.left ++ Expr.optionWords condition.right

mutual

/-- The names and literals in a statement, in the order of the source. -/
def Stmt.words : Stmt → List (TokenKind × String)
  | .assign name value => (.identifier, name) :: value.words
  | .call name args => (.identifier, name) :: Expr.listWords args
  | .declare name params body => (.identifier, name) :: (nameWords params ++ Stmt.listWords body)
  | .globals names => nameWords names
  | .locals names => nameWords names
  | .branch condition thenBody elseBody =>
    condition.words ++ Stmt.listWords thenBody ++ Stmt.listWords elseBody
  | .select selector cases => selector.words ++ CaseBlock.listWords cases
  | .loop condition body => condition.words ++ Stmt.listWords body
  | .ret value => Expr.optionWords value
  | .exitCode => []

/-- The names and literals in some statements. -/
def Stmt.listWords : List Stmt → List (TokenKind × String)
  | [] => []
  | stmt :: later => stmt.words ++ Stmt.listWords later

/-- The names and literals in a case. -/
def CaseBlock.words : CaseBlock → List (TokenKind × String)
  | ⟨value, body⟩ => value.words ++ Stmt.listWords body

/-- The names and literals in some cases. -/
def CaseBlock.listWords : List CaseBlock → List (TokenKind × String)
  | [] => []
  | block :: later => block.words ++ CaseBlock.listWords later

end

namespace Token

variable {t : Token} {ts : List Token} {word : String}

/-- A name or literal is the first of the words from it on. -/
lemma words_cons_of_begins (h : Grammar.beginsExpression t.kind = true) :
    words (t :: ts) = (t.kind, t.text) :: words ts := by
  simp [words, word?, h]

/-- A token of another kind is passed over. -/
lemma words_cons_of_not_begins (h : Grammar.beginsExpression t.kind = false) :
    words (t :: ts) = words ts := by
  simp [words, word?, h]

/-- A symbol says nothing. -/
lemma words_cons_of_isSymbol (h : t.isSymbol word = true) : words (t :: ts) = words ts := by
  simp only [isSymbol, Bool.and_eq_true, beq_iff_eq] at h
  exact words_cons_of_not_begins (by rw [h.1]; rfl)

/-- A reserved word says nothing, in whichever case it is written. -/
lemma words_cons_of_isKeyword (h : t.isKeyword word = true) : words (t :: ts) = words ts := by
  simp only [isKeyword, Bool.and_eq_true, beq_iff_eq] at h
  exact words_cons_of_not_begins (by rw [h.1]; rfl)

/-- A reserved word that is spelled just so says nothing. -/
lemma words_cons_of_isWord (h : t.IsWord word) : words (t :: ts) = words ts :=
  words_cons_of_not_begins (by rw [h.1]; rfl)

/-- A name says itself. -/
lemma words_cons_of_identifier (h : t.kind = .identifier) :
    words (t :: ts) = (.identifier, t.text) :: words ts := by
  rw [words_cons_of_begins (by rw [h]; rfl), h]

end Token

namespace Grammar

mutual

/-- The words of an expression are those of its tokens. -/
lemma Expression.words_eq {ts rest : List Token} {e : Expr} :
    Expression ts e rest → Token.words ts = e.words ++ Token.words rest
  | .string ht => by rw [Token.words_cons_of_begins (by rw [ht]; rfl), ht]; rfl
  | .number ht => by rw [Token.words_cons_of_begins (by rw [ht]; rfl), ht]; rfl
  | .boolean ht => by rw [Token.words_cons_of_begins (by rw [ht]; rfl), ht]; rfl
  | .var hname _ => by rw [Token.words_cons_of_identifier hname]; rfl
  | .call hname hopening hargs hclosing => by
    rw [Token.words_cons_of_identifier hname, Token.words_cons_of_isSymbol hopening,
      Expression.separated_words_eq hargs, Token.words_cons_of_isSymbol hclosing]
    rfl

/-- The words of expressions with commas are those of their tokens. -/
lemma Expression.separated_words_eq {ts rest : List Token} {es : List Expr} :
    Reading.Separated Expression ts es rest →
      Token.words ts = Expr.listWords es ++ Token.words rest
  | .nil => rfl
  | .last ha => by simp [Expression.words_eq ha, Expr.listWords]
  | .more ha hcomma has => by
    rw [Expression.words_eq ha, Token.words_cons_of_isSymbol hcomma,
      Expression.separated_words_eq has, Expr.listWords, List.append_assoc]

end

/-- The tokens of a condition say what the condition says. -/
lemma Comparison.words_eq {ts rest : List Token} {condition : Condition}
    (h : Comparison ts condition rest) : Token.words ts = condition.words ++ Token.words rest := by
  obtain ⟨hleft, hequals, hright⟩ := h
  rw [hleft.words_eq, Token.words_cons_of_isSymbol hequals, hright.words_eq, ← List.append_assoc]
  rfl

/-- The tokens of a run of names say these names. -/
lemma NameList.words_eq {ts rest : List Token} {names : List String}
    (h : NameList ts names rest) : Token.words ts = nameWords names ++ Token.words rest := by
  induction h with
  | done _ => rfl
  | name hname _ ih => rw [Token.words_cons_of_identifier hname, ih]; rfl
  | comma hcomma _ ih => rw [Token.words_cons_of_isSymbol hcomma, ih]

/-- The tokens of a list of names say these names. -/
lemma Name.separated_words_eq {ts rest : List Token} {names : List String}
    (h : Reading.Separated Name ts names rest) :
    Token.words ts = nameWords names ++ Token.words rest := by
  induction h with
  | nil => rfl
  | last ha =>
    obtain ⟨hname⟩ := ha
    rw [Token.words_cons_of_identifier hname]
    rfl
  | more ha hcomma _ ih =>
    obtain ⟨hname⟩ := ha
    rw [Token.words_cons_of_identifier hname, Token.words_cons_of_isSymbol hcomma, ih]
    rfl

/-- The tokens of some parameters say these names. -/
lemma Parameters.words_eq {ts rest : List Token} {params : List String}
    (h : Parameters ts params rest) : Token.words ts = nameWords params ++ Token.words rest := by
  cases h with
  | absent => rfl
  | present hopening hparams hclosing =>
    rw [Token.words_cons_of_isSymbol hopening, Name.separated_words_eq hparams,
      Token.words_cons_of_isSymbol hclosing]

mutual

/-- The words of a statement are those of its tokens. -/
lemma Statement.words_eq {ts rest : List Token} {s : Stmt} :
    Statement ts s rest → Token.words ts = s.words ++ Token.words rest
  | .assign hname hequals hvalue => by
    rw [Token.words_cons_of_identifier hname, Token.words_cons_of_isSymbol hequals,
      hvalue.words_eq]
    rfl
  | .call hname hopening hargs hclosing => by
    rw [Token.words_cons_of_identifier hname, Token.words_cons_of_isSymbol hopening,
      Expression.separated_words_eq hargs, Token.words_cons_of_isSymbol hclosing]
    rfl
  | .declare hword hname hparams hbody hclosing => by
    rw [Token.words_cons_of_isWord hword, Token.words_cons_of_identifier hname,
      hparams.words_eq, Block.words_eq hbody, Token.words_cons_of_isKeyword hclosing,
      ← List.append_assoc]
    rfl
  | .globals hword hnames _ => by rw [Token.words_cons_of_isWord hword, hnames.words_eq]; rfl
  | .locals hword hnames => by rw [Token.words_cons_of_isWord hword, hnames.words_eq]; rfl
  | .exitCode hword => by rw [Token.words_cons_of_isWord hword]; rfl
  | .branch hword hcondition hthen hclosing => by
    rw [Token.words_cons_of_isWord hword, hcondition.words_eq, Block.words_eq hthen,
      Token.words_cons_of_isKeyword hclosing]
    simp [Stmt.words, Stmt.listWords]
  | .branchElse hword hcondition hthen hdivider helse hclosing => by
    rw [Token.words_cons_of_isWord hword, hcondition.words_eq, Block.words_eq hthen,
      Token.words_cons_of_isKeyword hdivider, Block.words_eq helse,
      Token.words_cons_of_isKeyword hclosing]
    simp [Stmt.words]
  | .select hword hselector hcases hclosing => by
    rw [Token.words_cons_of_isWord hword, hselector.words_eq, Cases.words_eq hcases,
      Token.words_cons_of_isKeyword hclosing]
    simp [Stmt.words]
  | .loop hword hcondition hbody hclosing => by
    rw [Token.words_cons_of_isWord hword, hcondition.words_eq, Block.words_eq hbody,
      Token.words_cons_of_isKeyword hclosing]
    simp [Stmt.words]
  | .ret hword _ => by rw [Token.words_cons_of_isWord hword]; rfl
  | .retValue hword _ hvalue => by rw [Token.words_cons_of_isWord hword, hvalue.words_eq]; rfl

/-- **No name and no literal is lost**: the words of a block are those of its tokens. -/
lemma Block.words_eq {ts rest : List Token} {body : List Stmt} :
    Block Statement ts body rest → Token.words ts = Stmt.listWords body ++ Token.words rest
  | .done => rfl
  | .newline ht hbody => by
    rw [Token.words_cons_of_not_begins (by rw [ht]; rfl), Block.words_eq hbody]
  | .cons hstmt hbody => by
    rw [Statement.words_eq hstmt, Block.words_eq hbody, Stmt.listWords, List.append_assoc]

/-- The words of some cases are those of their tokens. -/
lemma Cases.words_eq {ts rest : List Token} {cases : List CaseBlock} :
    Cases (Block Statement) ts cases rest →
      Token.words ts = CaseBlock.listWords cases ++ Token.words rest
  | .done => rfl
  | .cons hword hvalue hbody hcases => by
    rw [Token.words_cons_of_isKeyword hword, hvalue.words_eq, Block.words_eq hbody,
      Cases.words_eq hcases]
    simp [CaseBlock.listWords, CaseBlock.words]

end

end Grammar

end DialogueScript
