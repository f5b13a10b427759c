import DialogueScript.Proofs.Parser.Program
import DialogueScript.Proofs.Parser.Walk

set_option autoImplicit false

/-!
# Going on behind a program

Nothing ends a statement but the token behind it, and at the end of the input there is none. So
what is a whole program by itself need not be one when more tokens follow: a variable might become a
call, a list of declared names might grow, and a `return` might find a value. The conditions under
which none of this happens are collected here. Under them every derivation stays one with more
tokens behind, and so the parser first gives what it gave without them, and then goes on with the
others as if it had just begun, whatever they are.

## Main definitions

* `DialogueScript.Grammar.Continues` — more tokens that do not reach into those before them.

## Main results

* `DialogueScript.Grammar.Statement.append`, `DialogueScript.Grammar.Block.append` — derivations
  with more tokens behind.
* `DialogueScript.Parser.program_append` — runs with more tokens behind.
-/

namespace DialogueScript

/-! ## Derivations leave a suffix -/

/-- What a parser recognizes, it takes from the front, if all it does is walk. -/
lemma Parser.Recognizes.suffix {α : Type} {p : Parser α} {reading : Reading α}
    (h : p.Recognizes reading) (hp : p.Walking) {ts rest : List Token} {a : α}
    (hread : reading ts a rest) : rest <:+ ts := by
  have hrun : p ⟨ts, 0⟩ = ⟨a, [], ⟨rest, 0⟩⟩ := (h _ _ _ _).mpr ⟨rest, rfl, hread⟩
  have hsuffix := (hp ⟨ts, 0⟩).suffix.1
  rw [hrun] at hsuffix
  exact hsuffix

namespace Grammar

open DialogueScript.Parser

variable {ts rest more : List Token}

/-- What is behind an expression is a part of the tokens. -/
lemma Expression.suffix {e : Expr} (h : Expression ts e rest) : rest <:+ ts :=
  (recognizes_expression e.nesting).suffix (walking_expression _) ⟨e, rfl, h, Nat.le_refl _⟩

/-- What is behind a condition is a part of the tokens. -/
lemma Comparison.suffix {condition : Condition} (h : Comparison ts condition rest) :
    rest <:+ ts := by
  obtain ⟨hleft, -, hright⟩ := h
  exact hright.suffix.trans ((List.suffix_cons _ _).trans hleft.suffix)

/-- What is behind some parameters is a part of the tokens. -/
lemma Parameters.suffix {params : List String} (h : Parameters ts params rest) : rest <:+ ts := by
  cases h with
  | absent => exact List.suffix_rfl
  | @present opening closing ts _ _ hopening hparams hclosing =>
    refine recognizes_parameterList.suffix walking_parameterList
      ⟨.present hopening hparams hclosing, fun heq => ?_⟩
    have hlen := Name.separated_length_le hparams
    rw [heq] at hlen
    simp only [List.length_cons] at hlen
    omega

/-- What is behind a statement is a part of the tokens. -/
lemma Statement.suffix {s : Stmt} (h : Statement ts s rest) : rest <:+ ts :=
  (recognizes_statement s.nesting).suffix (stepping_statement _).walking
    (.inr ⟨s, rfl, h, Nat.le_refl _⟩)

/-- What is behind a block is a part of the tokens. -/
lemma Block.suffix {body : List Stmt} (h : Block Statement ts body rest) : rest <:+ ts := by
  induction h with
  | done => exact List.suffix_rfl
  | newline _ _ ih => exact ih.trans (List.suffix_cons _ _)
  | cons hstmt _ ih => exact ih.trans hstmt.suffix

/-! ## More tokens behind -/

/-- More tokens that do not reach into those before them. -/
structure Continues (ts more : List Token) : Prop where
  /-- A name at the end does not become a call. -/
  opening : ∀ u ∈ more.head?, u.isSymbol "(" = false
  /-- A `return` at the end does not find a value on its line. -/
  line : ∀ t ∈ ts, ∀ u ∈ more.head?, u.line ≠ t.line
  /-- A list of declared names is ended by a newline token. -/
  declaration : ∀ {t after}, t :: after <:+ ts → t.IsWord "global" ∨ t.IsWord "local" →
    ∃ u ∈ after, u.kind = .newline

/-- They do not reach into the last of those before them either. -/
lemma Continues.of_suffix {ts' : List Token} (h : Continues ts more) (hsuffix : ts' <:+ ts) :
    Continues ts' more :=
  ⟨h.opening, fun t ht => h.line t (hsuffix.subset ht),
    fun hafter => h.declaration (hafter.trans hsuffix)⟩

/-- What does not reach into some tokens does not reach into those behind the first. -/
lemma Continues.tail {t : Token} (h : Continues (t :: ts) more) : Continues ts more :=
  h.of_suffix (List.suffix_cons t ts)

/-- What holds of the next token, if there is one, holds with more tokens behind if it holds of the
first of those. -/
lemma forall_head?_append {P : Token → Prop} (h : ∀ t ∈ rest.head?, P t)
    (hmore : ∀ t ∈ more.head?, P t) : ∀ t ∈ (rest ++ more).head?, P t := by
  cases rest with
  | nil => exact hmore
  | cons u rest => exact h

mutual

/-- An expression stays the same with more tokens behind it, if these do not begin with a
parenthesis, which would make a call of a name. -/
lemma Expression.append {ts rest : List Token} {e : Expr}
    (hmore : ∀ u ∈ more.head?, u.isSymbol "(" = false) :
    Expression ts e rest → Expression (ts ++ more) e (rest ++ more)
  | .string ht => .string ht
  | .number ht => .number ht
  | .boolean ht => .boolean ht
  | .var hname hrest => .var hname (forall_head?_append hrest hmore)
  | .call hname hopening hargs hclosing =>
    .call hname hopening (Expression.separated_append hmore hargs) hclosing

/-- Arguments stay the same with more tokens behind them that do not begin with a parenthesis. -/
lemma Expression.separated_append {ts rest : List Token} {es : List Expr}
    (hmore : ∀ u ∈ more.head?, u.isSymbol "(" = false) :
    Reading.Separated Expression ts es rest →
      Reading.Separated Expression (ts ++ more) es (rest ++ more)
  | .nil => .nil
  | .last ha => .last (Expression.append hmore ha)
  | .more ha hcomma has =>
    .more (Expression.append hmore ha) hcomma (Expression.separated_append hmore has)

end

/-- A condition stays the same with more tokens behind it that do not begin with a parenthesis. -/
lemma Comparison.append {condition : Condition} (hmore : ∀ u ∈ more.head?, u.isSymbol "(" = false)
    (h : Comparison ts condition rest) : Comparison (ts ++ more) condition (rest ++ more) := by
  obtain ⟨hleft, hequals, hright⟩ := h
  exact ⟨hleft.append hmore, hequals, hright.append hmore⟩

/-- A list of names stays the same with any tokens behind it. -/
lemma Name.separated_append {names : List String} (h : Reading.Separated Name ts names rest) :
    Reading.Separated Name (ts ++ more) names (rest ++ more) := by
  induction h with
  | nil => exact .nil
  | last ha =>
    obtain ⟨hname⟩ := ha
    exact .last ⟨hname⟩
  | more ha hcomma _ ih =>
    obtain ⟨hname⟩ := ha
    exact .more ⟨hname⟩ hcomma ih

/-- The parameters of a function stay the same with any tokens behind them. -/
lemma Parameters.append {params : List String} (h : Parameters ts params rest) :
    Parameters (ts ++ more) params (rest ++ more) := by
  cases h with
  | absent => exact .absent
  | present hopening hparams hclosing =>
    exact .present hopening (Name.separated_append hparams) hclosing

/-- A list of names that is ended by a newline token does not see more tokens behind. -/
lemma NameList.append {names : List String} (h : NameList ts names rest)
    (hend : ∃ u ∈ ts, u.kind = .newline) : NameList (ts ++ more) names (rest ++ more) := by
  induction h with
  | @done rest hrest =>
    obtain ⟨u, hu, -⟩ := hend
    refine .done fun t ht => hrest t ?_
    cases rest with
    | nil => simp at hu
    | cons v rest => exact ht
  | name hname _ ih =>
    obtain ⟨u, hu, hkind⟩ := hend
    rcases List.mem_cons.mp hu with rfl | hu
    · simp [hname] at hkind
    · exact .name hname (ih ⟨u, hu, hkind⟩)
  | comma hcomma _ ih =>
    obtain ⟨u, hu, hkind⟩ := hend
    rcases List.mem_cons.mp hu with rfl | hu
    · simp [Token.isSymbol, hkind] at hcomma
    · exact .comma hcomma (ih ⟨u, hu, hkind⟩)

mutual

/-- **Statements with more tokens behind.** -/
lemma Statement.append {ts rest : List Token} {s : Stmt} (hmore : Continues ts more) :
    Statement ts s rest → Statement (ts ++ more) s (rest ++ more)
  | .assign hname hequals hvalue => .assign hname hequals (hvalue.append hmore.opening)
  | .call hname hopening hargs hclosing =>
    .call hname hopening (Expression.separated_append hmore.opening hargs) hclosing
  | .declare hword hname hparams hbody hclosing =>
    .declare hword hname hparams.append
      (Block.append (hmore.tail.tail.of_suffix hparams.suffix) hbody) hclosing
  | .globals hword hnames hsome =>
    .globals hword (hnames.append (hmore.declaration List.suffix_rfl (.inl hword))) hsome
  | .locals hword hnames =>
    .locals hword (hnames.append (hmore.declaration List.suffix_rfl (.inr hword)))
  | .exitCode hword => .exitCode hword
  | .branch hword hcondition hthen hclosing =>
    .branch hword (hcondition.append hmore.opening)
      (Block.append (hmore.tail.of_suffix hcondition.suffix) hthen) hclosing
  | .branchElse hword hcondition hthen hdivider helse hclosing =>
    have hmid := hmore.tail.of_suffix hcondition.suffix
    .branchElse hword (hcondition.append hmore.opening) (Block.append hmid hthen) hdivider
      (Block.append (hmid.of_suffix hthen.suffix).tail helse) hclosing
  | .select hword hselector hcases hclosing =>
    .select hword (hselector.append hmore.opening)
      (Cases.append (hmore.tail.of_suffix hselector.suffix) hcases) hclosing
  | .loop hword hcondition hbody hclosing =>
    .loop hword (hcondition.append hmore.opening)
      (Block.append (hmore.tail.of_suffix hcondition.suffix) hbody) hclosing
  | .ret hword hrest =>
    .ret hword (forall_head?_append hrest (hmore.line _ List.mem_cons_self))
  | .retValue hword hline hvalue => .retValue hword hline (hvalue.append hmore.opening)

/-- **Blocks with more tokens behind.** -/
lemma Block.append {ts rest : List Token} {body : List Stmt} (hmore : Continues ts more) :
    Block Statement ts body rest → Block Statement (ts ++ more) body (rest ++ more)
  | .done => .done
  | .newline ht hbody => .newline ht (Block.append hmore.tail hbody)
  | .cons hstmt hbody =>
    .cons (Statement.append hmore hstmt) (Block.append (hmore.of_suffix hstmt.suffix) hbody)

/-- Cases with more tokens behind. -/
lemma Cases.append {ts rest : List Token} {cases : List CaseBlock} (hmore : Continues ts more) :
    Cases (Block Statement) ts cases rest →
      Cases (Block Statement) (ts ++ more) cases (rest ++ more)
  | .done => .done
  | .cons hword hvalue hbody hcases =>
    have hmid := hmore.tail.of_suffix hvalue.suffix
    .cons hword (hvalue.append hmore.opening) (Block.append hmid hbody)
      (Cases.append (hmid.of_suffix hbody.suffix) hcases)

end

end Grammar

namespace Parser

open Grammar

variable {α : Type} {ts rest more : List Token} {n : Nat}

/-! ## Runs -/

/-- **A repetition goes on behind items that it recognizes** as if it had just begun there.

**Proof sketch.** Induction on the items, each of which is one round. -/
lemma manyUntil_of_many {stop : Cursor → Bool} {item : Parser (Option α)}
    {reading : Reading (Option α)} (hitem : item.Recognizes reading) (hstep : Stepping item)
    (htakes : reading.Takes)
    (hstop : ∀ {ts r rest} (n : Nat), reading ts r rest → stop ⟨ts, n⟩ = false) {as : List α}
    (h : reading.Many ts as rest) :
    manyUntil stop item ⟨ts, n⟩ =
      { manyUntil stop item ⟨rest, n⟩ with
        value := as ++ (manyUntil stop item ⟨rest, n⟩).value } := by
  induction h with
  | done => rfl
  | @item ts mid rest r as hr _ ih =>
    have hrun : item ⟨ts, n⟩ = ⟨r, [], ⟨mid, n⟩⟩ := (hitem _ _ _ _).mpr ⟨mid, rfl, hr⟩
    have hgo : ((⟨ts, n⟩ : Cursor).atEnd || stop ⟨ts, n⟩) = false := by
      simp [htakes.ne_nil hr, hstop n hr]
    rw [manyUntil_of_go hstep hgo, hrun]
    simp only [ih, List.nil_append, List.append_assoc]

/-- **A program with more tokens behind**: the parser gives its statements, and then what it gives
on the other tokens alone, whatever they are. -/
lemma program_append {statements : List Stmt} (h : Program ts statements)
    (hroom : Stmt.listNesting statements ≤ nestingLimit) (hmore : Continues ts more) :
    program ⟨ts ++ more, n⟩ =
      { program ⟨more, n⟩ with value := statements ++ (program ⟨more, n⟩).value } :=
  manyUntil_of_many (recognizes_statement nestingLimit) (stepping_statement nestingLimit)
    LineWithin.takes (fun _ _ => rfl) (many_line_iff.mpr ⟨h.append hmore, hroom⟩)

end Parser

end DialogueScript
