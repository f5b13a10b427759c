import DialogueScript.Proofs.Parser.Grammar
import DialogueScript.Proofs.Parser.Walk
import DialogueScript.Script.Basic

set_option autoImplicit false

/-!
# Where the words of a program come from

A parser makes up no words. Whatever it has to pass over or to give up, the names and the literals
of what it keeps are texts of tokens that were ahead, and tokens of the right kind: a name was a
name, a number was a number. The shape of the result is as narrow. There are no comparisons but in
conditions, those are for equality and have no right side without a left one, and a declaration of
global variables has a name in it.

A *word* is a kind of token together with a text. The shape is described for any set of words, so
that what is known of the tokens carries over to the program.

What a parser of statements gives depends on the parsers of expressions and of blocks that it is
handed. So the parsers are gone through once, for a single *layer* of a statement: its words are of
some sort, its expressions and the statements in its blocks are what the other parsers give. Each
property of whole programs follows by putting layers on top of each other.

## Main definitions

* `DialogueScript.Expr.MadeOf`, `DialogueScript.Condition.MadeOf`, `DialogueScript.Stmt.MadeOf` —
  programs in the shape that parsers give, made of some words.
* `DialogueScript.Condition.Layer`, `DialogueScript.Stmt.Layer` — one layer of them.
* `DialogueScript.Parser.Makes` — a parser finds something with a property wherever only such words
  are ahead.
* `DialogueScript.TokenKind.Occurs` — the words that occur in source texts.

## Main results

* `DialogueScript.Parser.makesOption_statementWith` — what a parser of statements gives.
* `DialogueScript.madeOf_parseTokens` — a program is made of the words of its tokens.
* `DialogueScript.Script.madeOf_load` — a script is made of words that occur in source texts.
* `DialogueScript.TokenKind.Occurs.digits` — numbers among them consist of digits.
-/

namespace DialogueScript

/-! ## Programs made of words -/

section Words

variable {Word : TokenKind → String → Prop}

/-- An expression without comparisons, made of some words. -/
inductive Expr.MadeOf (Word : TokenKind → String → Prop) : Expr → Prop
  /-- The text of a literal is a word of its sort. -/
  | literal {kind : LiteralKind} {text : String} (htext : Word kind.tokenKind text) :
      Expr.MadeOf Word (.literal kind text)
  /-- The name of a variable is a name. -/
  | var {name : String} (hname : Word .identifier name) : Expr.MadeOf Word (.var name)
  /-- The name of a function is a name, and the arguments are of the same sort. -/
  | call {name : String} {args : List Expr} (hname : Word .identifier name)
      (hargs : ∀ e ∈ args, Expr.MadeOf Word e) : Expr.MadeOf Word (.call name args)

/-- A comparison for equality of expressions of some sort, with no right side unless there is a left
one. -/
structure Condition.Layer (E : Expr → Prop) (condition : Condition) : Prop where
  /-- The comparison is for equality. -/
  op : condition.op = .eq
  /-- The left side is of that sort. -/
  left : ∀ e ∈ condition.left, E e
  /-- The right side is of that sort. -/
  right : ∀ e ∈ condition.right, E e
  /-- There is no right side without a left one. -/
  sides : condition.left = none → condition.right = none

/-- A comparison for equality of expressions made of some words. -/
def Condition.MadeOf (Word : TokenKind → String → Prop) (condition : Condition) : Prop :=
  condition.Layer (Expr.MadeOf Word)

/-- A statement made of some words. -/
inductive Stmt.MadeOf (Word : TokenKind → String → Prop) : Stmt → Prop
  /-- An assignment. -/
  | assign {name : String} {value : Expr} (hname : Word .identifier name)
      (hvalue : value.MadeOf Word) : Stmt.MadeOf Word (.assign name value)
  /-- A call. -/
  | call {name : String} {args : List Expr} (hname : Word .identifier name)
      (hargs : ∀ e ∈ args, e.MadeOf Word) : Stmt.MadeOf Word (.call name args)
  /-- A declaration of a function. -/
  | declare {name : String} {params : List String} {body : List Stmt}
      (hname : Word .identifier name) (hparams : ∀ param ∈ params, Word .identifier param)
      (hbody : ∀ s ∈ body, Stmt.MadeOf Word s) : Stmt.MadeOf Word (.declare name params body)
  /-- A declaration of variables of the whole program. -/
  | globals {names : List String} (hne : names ≠ [])
      (hnames : ∀ name ∈ names, Word .identifier name) : Stmt.MadeOf Word (.globals names)
  /-- A declaration of variables of a call. -/
  | locals {names : List String} (hnames : ∀ name ∈ names, Word .identifier name) :
      Stmt.MadeOf Word (.locals names)
  /-- A branch. -/
  | branch {guard : Condition} {thenBody elseBody : List Stmt} (hguard : guard.MadeOf Word)
      (hthen : ∀ s ∈ thenBody, Stmt.MadeOf Word s) (helse : ∀ s ∈ elseBody, Stmt.MadeOf Word s) :
      Stmt.MadeOf Word (.branch guard thenBody elseBody)
  /-- A choice between cases. -/
  | select {selector : Expr} {cases : List CaseBlock} (hselector : selector.MadeOf Word)
      (hvalues : ∀ block ∈ cases, block.value.MadeOf Word)
      (hbodies : ∀ block ∈ cases, ∀ s ∈ block.body, Stmt.MadeOf Word s) :
      Stmt.MadeOf Word (.select selector cases)
  /-- A loop. -/
  | loop {guard : Condition} {body : List Stmt} (hguard : guard.MadeOf Word)
      (hbody : ∀ s ∈ body, Stmt.MadeOf Word s) : Stmt.MadeOf Word (.loop guard body)
  /-- A return. -/
  | ret {value : Option Expr} (hvalue : ∀ e ∈ value, e.MadeOf Word) : Stmt.MadeOf Word (.ret value)
  /-- An exit. -/
  | exitCode : Stmt.MadeOf Word .exitCode

/-! ## Layers -/

/-- A statement in which the words, the expressions and the statements of its blocks are of some
sort each. -/
inductive Stmt.Layer (Word : TokenKind → String → Prop) (E : Expr → Prop) (S : Stmt → Prop) :
    Stmt → Prop
  /-- An assignment. -/
  | assign {name : String} {value : Expr} (hname : Word .identifier name) (hvalue : E value) :
      Layer Word E S (.assign name value)
  /-- A call. -/
  | call {name : String} {args : List Expr} (hname : Word .identifier name)
      (hargs : ∀ e ∈ args, E e) : Layer Word E S (.call name args)
  /-- A declaration of a function. -/
  | declare {name : String} {params : List String} {body : List Stmt}
      (hname : Word .identifier name) (hparams : ∀ param ∈ params, Word .identifier param)
      (hbody : ∀ s ∈ body, S s) : Layer Word E S (.declare name params body)
  /-- A declaration of variables of the whole program. -/
  | globals {names : List String} (hne : names ≠ [])
      (hnames : ∀ name ∈ names, Word .identifier name) : Layer Word E S (.globals names)
  /-- A declaration of variables of a call. -/
  | locals {names : List String} (hnames : ∀ name ∈ names, Word .identifier name) :
      Layer Word E S (.locals names)
  /-- A branch. -/
  | branch {guard : Condition} {thenBody elseBody : List Stmt} (hguard : guard.Layer E)
      (hthen : ∀ s ∈ thenBody, S s) (helse : ∀ s ∈ elseBody, S s) :
      Layer Word E S (.branch guard thenBody elseBody)
  /-- A choice between cases. -/
  | select {selector : Expr} {cases : List CaseBlock} (hselector : E selector)
      (hvalues : ∀ block ∈ cases, E block.value)
      (hbodies : ∀ block ∈ cases, ∀ s ∈ block.body, S s) : Layer Word E S (.select selector cases)
  /-- A loop. -/
  | loop {guard : Condition} {body : List Stmt} (hguard : guard.Layer E)
      (hbody : ∀ s ∈ body, S s) : Layer Word E S (.loop guard body)
  /-- A return. -/
  | ret {value : Option Expr} (hvalue : ∀ e ∈ value, E e) : Layer Word E S (.ret value)
  /-- An exit. -/
  | exitCode : Layer Word E S .exitCode

/-- A layer on top of what is made of some words is made of these words too. -/
lemma Stmt.Layer.madeOf {s : Stmt}
    (h : s.Layer Word (Expr.MadeOf Word) (Stmt.MadeOf Word)) : s.MadeOf Word := by
  cases h with
  | assign hname hvalue => exact .assign hname hvalue
  | call hname hargs => exact .call hname hargs
  | declare hname hparams hbody => exact .declare hname hparams hbody
  | globals hne hnames => exact .globals hne hnames
  | locals hnames => exact .locals hnames
  | branch hguard hthen helse => exact .branch hguard hthen helse
  | select hselector hvalues hbodies => exact .select hselector hvalues hbodies
  | loop hguard hbody => exact .loop hguard hbody
  | ret hvalue => exact .ret hvalue
  | exitCode => exact .exitCode

/-- Only some words are ahead of the cursor. -/
def Cursor.Worded (Word : TokenKind → String → Prop) (c : Cursor) : Prop :=
  ∀ t ∈ c.tokens, Word t.kind t.text

/-- The token at the cursor is one of the words, unless the input has ended. -/
lemma Cursor.Worded.peek {c : Cursor} (hc : c.Worded Word) {kind : TokenKind}
    (hkind : c.peek.kind = kind) (hne : kind ≠ .eof) : Word kind c.peek.text := by
  obtain ⟨tokens, endLine⟩ := c
  cases tokens with
  | nil => exact absurd hkind.symm hne
  | cons t tokens => exact hkind ▸ hc t (by simp)

namespace Parser

variable {α β : Type} {P : α → Prop} {Q : β → Prop} {p : Parser α} {f : α → Parser β} {c : Cursor}

/-! ## Primitives -/

/-- From the cursor on, the parser finds something with the property and leaves only words of the
same sort ahead. -/
def MakesFrom (Word : TokenKind → String → Prop) (P : α → Prop) (p : Parser α) (c : Cursor) :
    Prop :=
  P (p c).value ∧ (p c).rest.Worded Word

/-- The parser does so wherever only such words are ahead. -/
def Makes (Word : TokenKind → String → Prop) (P : α → Prop) (p : Parser α) : Prop :=
  ∀ c, c.Worded Word → MakesFrom Word P p c

/-- The parser finds several things, each with the property. -/
abbrev MakesList (Word : TokenKind → String → Prop) (P : α → Prop) (p : Parser (List α)) : Prop :=
  Makes Word (fun found => ∀ a ∈ found, P a) p

/-- The parser finds something with the property or nothing at all. -/
abbrev MakesOption (Word : TokenKind → String → Prop) (P : α → Prop) (p : Parser (Option α)) :
    Prop :=
  Makes Word (fun found => ∀ a ∈ found, P a) p

/-- What is given at once has the property that it has, and all words are still ahead. -/
lemma makes_pure {a : α} (h : P a) : Makes Word P (pure a) :=
  fun _ hc => ⟨h, hc⟩

/-- The property of what is found may be weakened. -/
lemma MakesOption.mono {P Q : α → Prop} {p : Parser (Option α)} (hp : MakesOption Word P p)
    (hPQ : ∀ a, P a → Q a) : MakesOption Word Q p :=
  fun c hc => ⟨fun a ha => hPQ a ((hp c hc).1 a ha), (hp c hc).2⟩

/-- Finding nothing, a parser finds nothing without the property. -/
lemma makesOption_none : MakesOption Word P (pure none) :=
  makes_pure (by simp)

/-- Something with the property may be given at once. -/
lemma makesOption_some {a : α} (h : P a) : MakesOption Word P (pure (some a)) :=
  makes_pure (by simpa using h)

/-- An empty list has no member without the property. -/
lemma makesList_nil : MakesList Word P (pure []) :=
  makes_pure (by simp)

/-- From a cursor on, what is found first is handed on with its property. -/
lemma MakesFrom.bind (hp : MakesFrom Word P p c) (hf : ∀ a, P a → Makes Word Q (f a)) :
    MakesFrom Word Q (p >>= f) c :=
  hf _ hp.1 _ hp.2

/-- Parsers one after the other: what the first finds is handed on with its property. -/
lemma Makes.bind (hp : Makes Word P p) (hf : ∀ a, P a → Makes Word Q (f a)) :
    Makes Word Q (p >>= f) :=
  fun c hc => (hp c hc).bind hf

/-- Walking leaves no new words ahead. -/
lemma Walking.makes (hp : Walking p) : Makes Word (fun _ => True) p :=
  fun c hc => ⟨trivial, fun t ht => hc t ((hp c).suffix.1.subset ht)⟩

/-- Something is done whose result does not matter. -/
lemma Walking.makes_bind (hp : Walking p) (hf : ∀ a, Makes Word Q (f a)) :
    Makes Word Q (p >>= f) :=
  hp.makes.bind fun a _ => hf a

/-- A question about the cursor is answered on the spot. -/
lemma makesFrom_look_bind {g : Cursor → α} (h : MakesFrom Word Q (f (g c)) c) :
    MakesFrom Word Q (look g >>= f) c :=
  h

/-- Where a token of some kind is at the cursor, taking it gives a word of that kind. -/
lemma makesFrom_advance {kind : TokenKind} (hc : c.Worded Word) (hkind : c.peek.kind = kind)
    (hne : kind ≠ .eof) : MakesFrom Word (fun t => Word kind t.text) advance c :=
  ⟨hc.peek hkind hne, (walking_advance.makes c hc).2⟩

/-- If a name is at the cursor it is taken, and otherwise something else is done. -/
lemma makes_atName_bind {f : Bool → Parser β} {g : Token → Parser β}
    (htrue : f true = advance >>= g) (hg : ∀ t, Word .identifier t.text → Makes Word Q (g t))
    (hfalse : Makes Word Q (f false)) : Makes Word Q (atKind .identifier >>= f) := by
  refine fun c hc => makesFrom_look_bind ?_
  cases hkind : c.peek.kind == .identifier with
  | true =>
    rw [htrue]
    exact (makesFrom_advance hc (beq_iff_eq.mp hkind) (by simp)).bind hg
  | false => exact hfalse c hc

/-- A parser that gives up finds nothing. -/
lemma makesOption_giveUp (fault : Fault) : MakesOption Word P (giveUp fault) :=
  (walking_report fault).makes_bind fun _ => makesOption_none

/-- What was found comes before what is found later. -/
lemma Makes.prepend {found : List α} {later : Parser (List α)} (hfound : ∀ a ∈ found, P a)
    (hlater : MakesList Word P later) :
    MakesList Word P (later >>= fun as => pure (found ++ as)) :=
  hlater.bind fun _ has => makes_pure fun a ha => (List.mem_append.mp ha).elim (hfound a) (has a)

/-- A repetition finds what its item finds. -/
lemma makesList_manyUntil {stop : Cursor → Bool} {item : Parser (Option α)}
    (hitem : MakesOption Word P item) : MakesList Word P (manyUntil stop item) := by
  have hwithin : ∀ fuel, MakesList Word P (manyWithin stop item fuel) := by
    intro fuel
    induction fuel with
    | zero => exact makesList_nil
    | succ fuel ih =>
      refine (walking_look _).makes_bind fun stops => ?_
      cases stops with
      | true => exact makesList_nil
      | false => exact hitem.bind fun _ hfound => .prepend (by simpa using hfound) ih
  exact fun c => hwithin c.tokens.length c

/-- What stands behind an item of a list adds nothing of its own. -/
lemma makesList_goOnStrictly {loop : Parser (List α)} {found : Option α}
    (hfound : ∀ a ∈ found, P a) (hloop : MakesList Word P loop) (fault : Fault) :
    MakesList Word P (goOnStrictly fault found loop) := by
  have hfound : ∀ a ∈ found.toList, P a := by simpa using hfound
  refine (walking_takeSymbol _).makes_bind fun comma => ?_
  cases comma with
  | true => exact .prepend hfound hloop
  | false =>
    refine (walking_look _).makes_bind fun closing => ?_
    cases closing with
    | true => exact makes_pure hfound
    | false => exact (walking_report _).makes_bind fun _ => makes_pure hfound

/-! ## Expressions -/

section Expressions

variable {E P : Expr → Prop} {expr : Parser (Option Expr)}

/-- What a call expression is made of. -/
lemma makesOption_callArguments {item : Parser (Option Expr)} {name : String}
    (hitem : MakesOption Word E item) (hcall : ∀ args, (∀ e ∈ args, E e) → P (.call name args)) :
    MakesOption Word P (callArguments item name) := by
  have hargs : ∀ fuel, MakesList Word E (argumentsWithin item fuel) := by
    intro fuel
    induction fuel with
    | zero => exact makesList_nil
    | succ fuel ih =>
      refine (walking_look _).makes_bind fun stops => ?_
      cases stops with
      | true => exact makesList_nil
      | false => exact hitem.bind fun _ hfound => makesList_goOnStrictly hfound ih _
  refine (walking_takeSymbol _).makes_bind fun _ =>
    Makes.bind (P := fun args => ∀ e ∈ args, E e) (fun c => hargs c.tokens.length c)
      fun args hargs => (walking_takeSymbol _).makes_bind fun closing => ?_
  cases closing with
  | true => exact makesOption_some (hcall args hargs)
  | false => exact (walking_report _).makes_bind fun _ => makesOption_none

/-- What an expression is, given what the calls among them are. -/
lemma makesOption_expressionWith {call : String → Parser (Option Expr)}
    (hliteral : ∀ (kind : LiteralKind) (text : String), Word kind.tokenKind text →
      P (.literal kind text))
    (hvar : ∀ name, Word .identifier name → P (.var name))
    (hcall : ∀ name, Word .identifier name → MakesOption Word P (call name)) :
    MakesOption Word P (expressionWith call) := by
  -- The token is looked at before it is taken, so its kind is known where it is used.
  have hpeek : Makes Word (fun t : Token => t.kind ≠ .eof → Word t.kind t.text) peek :=
    fun c hc => ⟨hc.peek rfl, hc⟩
  refine hpeek.bind fun token htoken => ?_
  have htaken : ∀ kind : LiteralKind, token.kind = kind.tokenKind →
      MakesOption Word P (do
        let _ ← advance
        return some (.literal kind token.text)) := by
    intro kind hkind
    have hword : Word kind.tokenKind token.text := by
      rw [← hkind]
      exact htoken (by rw [hkind]; cases kind <;> simp [LiteralKind.tokenKind])
    exact walking_advance.makes_bind fun _ => makesOption_some (hliteral kind _ hword)
  split
  · next hkind =>
    have hname : Word .identifier token.text := hkind ▸ htoken (by simp [hkind])
    refine (walking_look _).makes_bind fun isCall => walking_advance.makes_bind fun _ => ?_
    cases isCall with
    | true => exact hcall _ hname
    | false => exact makesOption_some (hvar _ hname)
  · next hkind => exact htaken .string hkind
  · next hkind => exact htaken .number hkind
  · next hkind => exact htaken .boolean hkind
  · exact (walking_report _).makes_bind fun _ => makesOption_none

/-- Of a call that lies too deep nothing is left. -/
lemma makesOption_callTooDeep : MakesOption Word P callTooDeep :=
  (walking_report _).makes_bind fun _ => walking_skipParenthesized.makes_bind fun _ =>
    makesOption_none

/-- Expressions are made of the words ahead. -/
lemma makesOption_expression (room : Nat) :
    MakesOption Word (Expr.MadeOf Word) (expression room) := by
  have hwith : ∀ {call : String → Parser (Option Expr)},
      (∀ name, Word .identifier name → MakesOption Word (Expr.MadeOf Word) (call name)) →
        MakesOption Word (Expr.MadeOf Word) (expressionWith call) :=
    makesOption_expressionWith (fun _ _ => .literal) fun _ => .var
  induction room with
  | zero => exact hwith fun _ _ => makesOption_callTooDeep
  | succ room ih =>
    exact hwith fun _ hname => makesOption_callArguments ih fun _ => .call hname

/-- A parser of conditions compares what the parser of its sides gives for equality, and finds no
right side where it has found no left one. -/
lemma makes_condition (hexpr : MakesOption Word E expr) :
    Makes Word (Condition.Layer E) (condition expr) := by
  refine hexpr.bind fun left hleft => ?_
  cases left with
  | none =>
    exact (walking_report _).makes_bind fun _ => makes_pure ⟨rfl, by simp, by simp, fun _ => rfl⟩
  | some left =>
    have hlone : Condition.Layer E ⟨some left, .eq, none⟩ := ⟨rfl, hleft, by simp, by simp⟩
    refine (walking_takeSymbol _).makes_bind fun equals => ?_
    cases equals with
    | false => exact (walking_report _).makes_bind fun _ => makes_pure hlone
    | true =>
      refine hexpr.bind fun right hright => ?_
      cases right with
      | none => exact (walking_report _).makes_bind fun _ => makes_pure hlone
      | some right => exact makes_pure ⟨rfl, hleft, hright, by simp⟩

end Expressions

/-! ## Statements -/

section Statements

variable {E : Expr → Prop} {S : Stmt → Prop} {expr : Parser (Option Expr)}
  {block : List String → Parser (List Stmt)}

/-- A run of names gives names. -/
lemma makesList_nameList : MakesList Word (Word .identifier) (fuelled nameListWithin) := by
  have hwithin : ∀ fuel, MakesList Word (Word .identifier) (nameListWithin fuel) := by
    intro fuel
    induction fuel with
    | zero => exact makesList_nil
    | succ fuel ih =>
      refine makes_atName_bind rfl (fun t ht => ?_) ?_
      · have hfirst : ∀ name ∈ [t.text], Word .identifier name := by simpa using ht
        exact .prepend hfirst ih
      · refine (walking_takeSymbol _).makes_bind fun comma => ?_
        cases comma with
        | true => exact ih
        | false => exact makesList_nil
  exact fun c => hwithin c.tokens.length c

/-- A list of parameters gives names. -/
lemma makesList_parameterList : MakesList Word (Word .identifier) parameterList := by
  have hparameter : MakesOption Word (Word .identifier) parameter :=
    makes_atName_bind rfl (fun _ ht => makesOption_some ht) (makesOption_giveUp _)
  have hwithin : ∀ fuel, MakesList Word (Word .identifier) (parametersWithin fuel) := by
    intro fuel
    induction fuel with
    | zero => exact makesList_nil
    | succ fuel ih =>
      refine (walking_look _).makes_bind fun stops => ?_
      cases stops with
      | true => exact makesList_nil
      | false => exact hparameter.bind fun _ hfound => makesList_goOnStrictly hfound ih _
  refine (walking_takeSymbol _).makes_bind fun opening => ?_
  cases opening with
  | false => exact makesList_nil
  | true =>
    refine Makes.bind (P := fun params => ∀ param ∈ params, Word .identifier param)
      (fun c => hwithin c.tokens.length c) fun params hparams =>
        (walking_takeSymbol _).makes_bind fun closing => ?_
    cases closing with
    | true => exact makes_pure hparams
    | false => exact (walking_report _).makes_bind fun _ => makes_pure hparams

/-- The arguments of a call statement are what the parser of expressions gives. -/
lemma makesList_statementArguments (hexpr : MakesOption Word E expr) :
    MakesList Word E (fuelled (statementArgumentsWithin expr)) := by
  have hwithin : ∀ fuel, MakesList Word E (statementArgumentsWithin expr fuel) := by
    intro fuel
    induction fuel with
    | zero => exact makesList_nil
    | succ fuel ih =>
      refine (walking_look _).makes_bind fun stops => ?_
      cases stops with
      | true => exact makesList_nil
      | false =>
        refine hexpr.bind fun arg harg => ?_
        cases arg with
        | none => exact makesList_nil
        | some arg =>
          have harg : ∀ e ∈ [arg], E e := by simpa using harg
          refine (walking_takeSymbol _).makes_bind fun comma => ?_
          cases comma with
          | true => exact .prepend harg ih
          | false => exact makes_pure harg
  exact fun c => hwithin c.tokens.length c

/-- A word that is required at the end of a statement adds nothing to it. -/
lemma makesOption_closedBy {s : Stmt} (hs : s.Layer Word E S) (word : String) (fault : Fault) :
    MakesOption Word (Stmt.Layer Word E S) (takeKeyword word >>= fun closed =>
      if closed = true then pure (some s) else giveUp fault) := by
  refine (walking_takeKeyword word).makes_bind fun closed => ?_
  cases closed with
  | true => exact makesOption_some hs
  | false => exact makesOption_giveUp _

/-- Statements that begin with a name. -/
lemma makesFrom_name (hexpr : MakesOption Word E expr) (hc : c.Worded Word)
    (hname : c.peek.kind = .identifier) :
    MakesFrom Word (fun found => ∀ s ∈ found, s.Layer Word E S) (assignment expr) c ∧
      MakesFrom Word (fun found => ∀ s ∈ found, s.Layer Word E S) (callStatement expr) c := by
  have hword := makesFrom_advance hc hname (by simp)
  refine ⟨hword.bind fun name hname => walking_advance.makes_bind fun _ =>
    hexpr.bind fun value hvalue => ?_,
    hword.bind fun name hname => (walking_takeSymbol _).makes_bind fun opening => ?_⟩
  · cases value with
    | none => exact makesOption_giveUp _
    | some value => exact makesOption_some (.assign hname (hvalue value rfl))
  · cases opening with
    | false => exact makesOption_giveUp _
    | true =>
      refine (makesList_statementArguments hexpr).bind fun args hargs =>
        (walking_takeSymbol _).makes_bind fun closing => ?_
      cases closing with
      | true => exact makesOption_some (.call hname hargs)
      | false => exact makesOption_giveUp _

/-- A declared function has names for itself and its parameters, and the block for its body. -/
lemma makesOption_functionDeclaration
    (hblock : ∀ words, MakesList Word S (block words)) :
    MakesOption Word (Stmt.Layer Word E S) (functionDeclaration block) := by
  refine walking_advance.makes_bind fun _ => makes_atName_bind rfl (fun name hname => ?_)
    (makesOption_giveUp _)
  exact makesList_parameterList.bind fun params hparams => (hblock _).bind fun body hbody =>
    makesOption_closedBy (.declare hname hparams hbody) _ _

/-- Behind `else` stands what the parser of blocks gives, or nothing. -/
lemma makesList_elseBlock (hblock : ∀ words, MakesList Word S (block words)) :
    MakesList Word S (elseBlock block) := by
  refine (walking_takeKeyword _).makes_bind fun isElse => ?_
  cases isElse with
  | true => exact hblock _
  | false => exact makesList_nil

/-- A choice has the expressions and the blocks that its parsers give. -/
lemma makesOption_switchStatement (hexpr : MakesOption Word E expr)
    (hblock : ∀ words, MakesList Word S (block words)) :
    MakesOption Word (Stmt.Layer Word E S) (switchStatement expr block) := by
  have hitem : MakesOption Word
      (fun case : CaseBlock => E case.value ∧ ∀ s ∈ case.body, S s)
      (switchItem expr block) := by
    refine (walking_takeKeyword _).makes_bind fun isCase => ?_
    cases isCase with
    | false =>
      exact (walking_report _).makes_bind fun _ => walking_advance.makes_bind fun _ =>
        makesOption_none
    | true =>
      refine hexpr.bind fun value hvalue => ?_
      cases value with
      | none => exact makesOption_giveUp _
      | some value =>
        exact (hblock _).bind fun body hbody => makesOption_some ⟨hvalue value rfl, hbody⟩
  refine walking_advance.makes_bind fun _ => hexpr.bind fun selector hselector => ?_
  cases selector with
  | none => exact makesOption_giveUp _
  | some selector =>
    refine (makesList_manyUntil hitem).bind fun cases hcases => makesOption_closedBy ?_ _ _
    exact .select (hselector selector rfl) (fun case hcase => (hcases case hcase).1)
      fun case hcase => (hcases case hcase).2

/-- A statement with a reserved word is one layer over what the other parsers give. -/
lemma makesOption_keywordStatement (hexpr : MakesOption Word E expr)
    (hblock : ∀ words, MakesList Word S (block words)) (word : String) :
    MakesOption Word (Stmt.Layer Word E S) (keywordStatement expr block word) := by
  unfold keywordStatement
  split
  · exact makesOption_functionDeclaration hblock
  split
  · refine walking_advance.makes_bind fun _ => makesList_nameList.bind fun names hnames => ?_
    split
    · exact makesOption_giveUp _
    · next hempty => exact makesOption_some (.globals (by simpa using hempty) hnames)
  split
  · exact walking_advance.makes_bind fun _ => makesList_nameList.bind fun _ hnames =>
      makesOption_some (.locals hnames)
  split
  · exact walking_advance.makes_bind fun _ => makesOption_some .exitCode
  split
  · exact walking_advance.makes_bind fun _ => (makes_condition hexpr).bind fun _ hguard =>
      (hblock _).bind fun _ hthen => (makesList_elseBlock hblock).bind fun _ helse =>
        makesOption_closedBy (.branch hguard hthen helse) _ _
  split
  · exact makesOption_switchStatement hexpr hblock
  split
  · exact walking_advance.makes_bind fun _ => (makes_condition hexpr).bind fun _ hguard =>
      (hblock _).bind fun _ hbody => makesOption_closedBy (.loop hguard hbody) _ _
  split
  · refine walking_advance.makes_bind fun _ => (walking_look _).makes_bind fun hasValue => ?_
    cases hasValue with
    | true => exact hexpr.bind fun _ hvalue => makesOption_some (.ret hvalue)
    | false => exact makesOption_some (.ret (by simp))
  · exact (walking_report _).makes_bind fun _ => walking_advance.makes_bind fun _ =>
      makesOption_none

/-- A statement is one layer over what the parsers of expressions and blocks give. -/
lemma makesOption_statementWith (hexpr : MakesOption Word E expr)
    (hblock : ∀ words, MakesList Word S (block words)) :
    MakesOption Word (Stmt.Layer Word E S) (statementWith expr block) := by
  intro c hc
  refine makesFrom_look_bind ?_
  split
  · exact makesOption_keywordStatement hexpr hblock _ c hc
  · next hname =>
    refine makesFrom_look_bind ?_
    split
    · exact (makesFrom_name hexpr hc hname).1
    · exact (makesFrom_name hexpr hc hname).2
  · exact (walking_advance.makes_bind fun _ => makesOption_none) c hc
  · exact ((walking_report _).makes_bind fun _ => walking_advance.makes_bind fun _ =>
      makesOption_none) c hc

end Statements

/-- Of a block that lies too deep nothing is left. -/
lemma makesList_blockTooDeep {S : Stmt → Prop} (words : List String) :
    MakesList Word S (blockTooDeep words) :=
  (walking_report _).makes_bind fun _ => (walking_skipBlock words).makes_bind fun _ =>
    makesList_nil

/-- Statements are made of the words ahead. -/
lemma makesOption_statement (room : Nat) :
    MakesOption Word (Stmt.MadeOf Word) (statement room) := by
  induction room with
  | zero =>
    exact (makesOption_statementWith (makesOption_expression 0) makesList_blockTooDeep).mono
      fun _ => Stmt.Layer.madeOf
  | succ room ih =>
    exact (makesOption_statementWith (makesOption_expression (room + 1)) fun _ =>
      makesList_manyUntil ih).mono fun _ => Stmt.Layer.madeOf

end Parser

/-! ## Scripts -/

/-- **A program is made of the words of its tokens**, whatever could not be read. -/
theorem madeOf_parseTokens {tokens : List Token}
    (htokens : ∀ t ∈ tokens, Word t.kind t.text) :
    ∀ s ∈ (parseTokens tokens).1, s.MadeOf Word := by
  have hstart : (Cursor.start tokens).Worded Word := fun t ht =>
    htokens t ((List.takeWhile_prefix _).subset ht)
  exact (Parser.makesList_manyUntil (Parser.makesOption_statement _) _ hstart).1

end Words

/-- A word that occurs in some source text. -/
def TokenKind.Occurs (kind : TokenKind) (text : String) : Prop :=
  ∃ (source : String) (line : Nat), ⟨kind, text, line⟩ ∈ (Lexed.ofSource source).tokens

/-- **A script is made of words that occur in source texts.** -/
theorem Script.madeOf_load (id source : String) :
    ∀ s ∈ (Script.load id source).statements, s.MadeOf TokenKind.Occurs :=
  madeOf_parseTokens fun t ht => ⟨source, t.line, ht⟩

/-- A token of a line comes from one of its lexemes or ends a declaration. -/
lemma Token.mem_ofLine {line : Nat} {cs : List Char} {t : Token} (ht : t ∈ Token.ofLine line cs) :
    (∃ lexeme ∈ Lexeme.ofLine cs, t = Token.ofLexeme line lexeme) ∨ t.kind = .newline := by
  have hlexeme : t ∈ (Lexeme.ofLine cs).map (Token.ofLexeme line) →
      ∃ lexeme ∈ Lexeme.ofLine cs, t = Token.ofLexeme line lexeme := by
    intro hmem
    obtain ⟨lexeme, hlexeme, rfl⟩ := List.mem_map.mp hmem
    exact ⟨lexeme, hlexeme, rfl⟩
  rw [Token.ofLine] at ht
  split at ht
  · rcases List.mem_append.mp ht with hmem | hend
    · exact .inl (hlexeme hmem)
    · obtain rfl := List.mem_singleton.mp hend
      exact .inr rfl
  · exact .inl (hlexeme ht)

/-- A token of a source text is a token of one of its lines or ends the input. -/
lemma Lexed.mem_tokens {source : String} {t : Token} (ht : t ∈ (Lexed.ofSource source).tokens) :
    (∃ n, ∃ line ∈ Text.lines source.toList, t ∈ Token.ofLine n line) ∨ t.kind = .eof := by
  have hlines : ∀ (lines : List (List Char)) (n : Nat), t ∈ (Lexed.ofLines n lines).tokens →
      (∃ n, ∃ line ∈ lines, t ∈ Token.ofLine n line) ∨ t.kind = .eof := by
    intro lines
    induction lines with
    | nil =>
      intro n ht
      obtain rfl := List.mem_singleton.mp ht
      exact .inr rfl
    | cons line later ih =>
      intro n ht
      rcases List.mem_append.mp ht with hfirst | hlater
      · exact .inl ⟨n, line, List.mem_cons_self, hfirst⟩
      · rcases ih _ hlater with ⟨m, other, hother, hmem⟩ | heof
        · exact .inl ⟨m, other, List.mem_cons_of_mem line hother, hmem⟩
        · exact .inr heof
  exact hlines _ _ ht

/-- Only a chunk of digits becomes a number. -/
lemma Token.digits_ofChunk (line : Nat) (cs : List Char)
    (hkind : (Token.ofChunk line cs).kind = .number) :
    (Token.ofChunk line cs).text.toList.all Char.isDigit = true := by
  revert hkind
  simp only [Token.ofChunk]
  split
  · simp
  split
  · simp
  split
  · next hdigits => simpa using hdigits
  split <;> simp

/-- Numbers in source texts consist of digits. -/
lemma TokenKind.Occurs.digits {text : String} (h : TokenKind.Occurs .number text) :
    text.toList.all Char.isDigit = true := by
  obtain ⟨source, line, hmem⟩ := h
  rcases Lexed.mem_tokens hmem with ⟨line', cs, -, hline⟩ | heof
  · rcases Token.mem_ofLine hline with ⟨lexeme, -, hlexeme⟩ | hnewline
    · cases lexeme with
      | symbol c => cases hlexeme
      | quoted text closed => cases hlexeme
      | chunk cs =>
        have hchunk : Token.ofChunk line' cs = ⟨.number, text, line⟩ := hlexeme.symm
        have hdigits := Token.digits_ofChunk line' cs (by rw [hchunk])
        rwa [hchunk] at hdigits
    · cases hnewline
  · cases heof

end DialogueScript
