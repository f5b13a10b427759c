import DialogueScript.Proofs.Parser.Statement
import DialogueScript.Proofs.Parser.Walk

set_option autoImplicit false

/-!
# Where declared variables come from

Every `global` or `local` statement that a parser gives, in whatever block it ends up, was read at
a reserved word among the tokens, and its names are those in the longest run of names and commas
behind that word. This holds of any tokens, also where the parser has something to report.

**Proof sketch.** A parser only ever looks at a part of the tokens that reaches up to their end
(`DialogueScript.Walks.suffix`). So what a parser gives from any such part on is followed through
its components, the result of one being handed to the next (`DialogueScript.Parser.Finds.bind`).
Declarations are where names are read; all other statements only pass on what lies in their blocks.

## Main definitions

* `DialogueScript.Token.nameRun` — the longest run of names and commas.
* `DialogueScript.Stmt.declaration?` — the reserved word and the names of a declaration.
* `DialogueScript.Stmt.Everywhere` — something holds of a statement and of all that lies in it.
* `DialogueScript.Token.Declares` — a declaration can be read somewhere in the tokens.
* `DialogueScript.Parser.Finds` — what a parser finds in a part of the tokens has a property.

## Main results

* `DialogueScript.Parser.fuelled_nameListWithin` — what is read behind the word of a declaration.
* `DialogueScript.Parser.finds_program` — all declarations of a program come from its tokens.
-/

namespace DialogueScript

/-! ## Runs of names -/

namespace Token

/-- The token can stand in a list of names. -/
def inNameList (token : Token) : Bool :=
  token.kind == .identifier || token.isSymbol ","

/-- The longest run of names and commas at the beginning of some tokens. -/
def nameRun (ts : List Token) : List Token :=
  ts.takeWhile inNameList

/-- The names among some tokens. -/
def names (ts : List Token) : List String :=
  (ts.filter fun token => token.kind == .identifier).map Token.text

end Token

/-- The longest run of names and commas is a list of names. -/
lemma Grammar.nameList_nameRun (ts : List Token) :
    NameList ts (Token.names (Token.nameRun ts)) (ts.dropWhile Token.inNameList) := by
  induction ts with
  | nil => exact .done (by simp)
  | cons t ts ih =>
    by_cases hname : t.kind = .identifier
    · have ht : t.inNameList = true := by simp [Token.inNameList, hname]
      rw [Token.nameRun, List.takeWhile_cons_of_pos ht, List.dropWhile_cons_of_pos ht, Token.names,
        List.filter_cons_of_pos (by simp [hname])]
      exact .name hname ih
    · cases hcomma : t.isSymbol "," with
      | true =>
        have ht : t.inNameList = true := by simp [Token.inNameList, hcomma]
        rw [Token.nameRun, List.takeWhile_cons_of_pos ht, List.dropWhile_cons_of_pos ht,
          Token.names, List.filter_cons_of_neg (by simp [hname])]
        exact .comma hcomma ih
      | false =>
        have ht : ¬ t.inNameList = true := by simp [Token.inNameList, hcomma, hname]
        rw [Token.nameRun, List.takeWhile_cons_of_neg ht, List.dropWhile_cons_of_neg ht]
        exact .done (by simpa using ⟨hname, hcomma⟩)

/-- **What is read behind the word of a declaration** are the names in the longest run of names and
commas. -/
lemma Parser.fuelled_nameListWithin (c : Cursor) :
    fuelled nameListWithin c =
      ⟨Token.names (Token.nameRun c.tokens), [],
        ⟨c.tokens.dropWhile Token.inNameList, c.endLine⟩⟩ :=
  (recognizes_nameList c.tokens c.endLine _ _).mpr
    ⟨_, rfl, Grammar.nameList_nameRun c.tokens⟩

/-! ## Declarations in a program -/

namespace Stmt

/-- The reserved word and the names of a declaration of variables. -/
def declaration? : Stmt → Option (String × List String)
  | .globals names => some ("global", names)
  | .locals names => some ("local", names)
  | _ => none

/-- Something holds of a statement and of every statement in its blocks, at any depth. -/
inductive Everywhere (P : Stmt → Prop) : Stmt → Prop
  /-- It holds of the statement, and everywhere in its blocks. -/
  | intro {s : Stmt} (self : P s)
      (blocks : ∀ block ∈ s.childBlocks, ∀ t ∈ block, Everywhere P t) : Everywhere P s

end Stmt

/-- Somewhere in the tokens the given reserved word stands in front of a run of names and commas
with the given names. -/
def Token.Declares (ts : List Token) (word : String) (names : List String) : Prop :=
  ∃ key later, key :: later <:+ ts ∧ key.IsWord word ∧ names = Token.names (Token.nameRun later)

/-- All declarations in a statement come from the tokens. -/
def Stmt.DeclaredIn (ts : List Token) : Stmt → Prop :=
  Stmt.Everywhere fun s =>
    ∀ word names, s.declaration? = some (word, names) → Token.Declares ts word names

namespace Stmt

variable {ts : List Token} {s : Stmt}

/-- A statement that is no declaration only passes on what lies in its blocks. -/
lemma declaredIn_of_blocks (hs : s.declaration? = none)
    (hblocks : ∀ block ∈ s.childBlocks, ∀ t ∈ block, t.DeclaredIn ts) : s.DeclaredIn ts :=
  .intro (by simp [hs]) hblocks

/-- A declaration comes from the tokens if its names do. -/
lemma declaredIn_of_declares {word : String} {names : List String}
    (hs : s.declaration? = some (word, names)) (hdeclares : Token.Declares ts word names) :
    s.DeclaredIn ts := by
  have hblocks : s.childBlocks = [] := by
    cases s <;> first | rfl | simp [declaration?] at hs
  refine .intro ?_ (by simp [hblocks])
  intro word' names' h
  obtain ⟨rfl, rfl⟩ : word = word' ∧ names = names' := by simpa [hs] using h
  exact hdeclares

end Stmt

namespace Parser

variable {α β : Type} {ts : List Token} {P : α → Prop} {Q : β → Prop} {p : Parser α}
  {f : α → Parser β}

/-! ## Primitives -/

/-- From the cursor on, what the parser finds has the property. -/
def FindsFrom (P : α → Prop) (p : Parser α) (c : Cursor) : Prop :=
  P (p c).value

/-- What the parser finds has the property, wherever in the tokens it begins. -/
def Finds (ts : List Token) (P : α → Prop) (p : Parser α) : Prop :=
  ∀ c, c.tokens <:+ ts → FindsFrom P p c

/-- The parser finds statements whose declarations come from the tokens. -/
abbrev FindsStatements (ts : List Token) (p : Parser (List Stmt)) : Prop :=
  Finds ts (fun found => ∀ s ∈ found, s.DeclaredIn ts) p

/-- The parser finds a statement or none, and its declarations come from the tokens. -/
abbrev FindsStatement (ts : List Token) (p : Parser (Option Stmt)) : Prop :=
  Finds ts (fun found => ∀ s ∈ found, s.DeclaredIn ts) p

/-- What is given at once has the property that it has. -/
lemma finds_pure {a : α} (h : P a) : Finds ts P (pure a) :=
  fun _ _ => h

/-- A question about the cursor is answered on the spot. -/
lemma findsFrom_look_bind {g : Cursor → α} {c : Cursor} (h : FindsFrom Q (f (g c)) c) :
    FindsFrom Q (look g >>= f) c :=
  h

/-- What is found first is handed on, and the cursor is still in the tokens. -/
lemma Finds.bind (hp : Finds ts P p) (hwalk : Walking p) (hf : ∀ a, P a → Finds ts Q (f a)) :
    Finds ts Q (p >>= f) :=
  fun c hc => hf _ (hp c hc) _ ((hwalk c).suffix.1.trans hc)

/-- Something is done whose result does not matter. -/
lemma Walking.finds_bind (hp : Walking p) (hf : ∀ a, Finds ts Q (f a)) : Finds ts Q (p >>= f) :=
  Finds.bind (P := fun _ => True) (fun _ _ => trivial) hp fun a _ => hf a

/-- Finding nothing, a parser finds nothing without the property. -/
lemma finds_none {P : α → Prop} : Finds ts (fun found => ∀ a ∈ found, P a) (pure none) :=
  finds_pure (by simp)

/-- A parser that gives up finds nothing. -/
lemma finds_giveUp {P : α → Prop} (fault : Fault) :
    Finds ts (fun found => ∀ a ∈ found, P a) (giveUp fault) :=
  (walking_report fault).finds_bind fun _ => finds_none

/-- A repetition finds what its item finds. -/
lemma finds_manyUntil {P : α → Prop} {stop : Cursor → Bool} {item : Parser (Option α)}
    (hitem : Finds ts (fun found => ∀ a ∈ found, P a) item) (hwalk : Walking item) :
    Finds ts (fun found => ∀ a ∈ found, P a) (manyUntil stop item) := by
  have hwithin : ∀ fuel, Finds ts (fun found => ∀ a ∈ found, P a) (manyWithin stop item fuel) := by
    intro fuel
    induction fuel with
    | zero => exact finds_pure (by simp)
    | succ fuel ih =>
      refine (walking_look _).finds_bind fun stops => ?_
      cases stops with
      | true => exact finds_pure (by simp)
      | false =>
        refine hitem.bind hwalk fun found hfound =>
          ih.bind (walking_manyWithin hwalk fuel) fun later hlater => finds_pure fun a ha => ?_
        rcases List.mem_append.mp ha with ha | ha
        · exact hfound a (Option.mem_toList.mp ha)
        · exact hlater a ha
  exact fun c => hwithin c.tokens.length c

/-! ## Statements -/

section Statements

variable {expr : Parser (Option Expr)} {block : List String → Parser (List Stmt)}

/-- A word that is required at the end of a statement, or else the statement is given up. -/
lemma finds_closedBy {s : Stmt} (hs : s.DeclaredIn ts) (word : String) (fault : Fault) :
    FindsStatement ts (takeKeyword word >>= fun closed =>
      if closed = true then pure (some s) else giveUp fault) := by
  refine (walking_takeKeyword word).finds_bind fun closed => ?_
  cases closed with
  | true => exact finds_pure (by simpa using hs)
  | false => exact finds_giveUp fault

/-- The names behind the word at the cursor make a declaration that comes from the tokens. -/
lemma declaredIn_names {c : Cursor} {word : String} {s : Stmt} (hc : c.tokens <:+ ts)
    (hword : c.peek.IsWord word)
    (hs : s.declaration? = some (word, Token.names (Token.nameRun c.advance.tokens))) :
    s.DeclaredIn ts := by
  obtain ⟨tokens, endLine⟩ := c
  cases tokens with
  | nil => exact absurd hword.1 (by simp [Cursor.peek, Token.endOfInput])
  | cons key later => exact Stmt.declaredIn_of_declares hs ⟨key, later, hc, hword, rfl⟩

/-- Behind the word at the cursor the names are read and handed on. -/
lemma findsFrom_names {c : Cursor} {Q : β → Prop} {g : List String → Parser β}
    (hg : ∀ c', FindsFrom Q (g (Token.names (Token.nameRun c.advance.tokens))) c') :
    FindsFrom Q (advance >>= fun _ => fuelled nameListWithin >>= g) c := by
  have hnames := fuelled_nameListWithin c.advance
  show FindsFrom Q (g (fuelled nameListWithin c.advance).value) _
  rw [hnames]
  exact hg _

/-- At the word `global` the declaration that is found comes from the tokens. -/
lemma findsFrom_globalDeclaration {c : Cursor} (hc : c.tokens <:+ ts)
    (hword : c.peek.IsWord "global") :
    FindsFrom (fun found => ∀ s ∈ found, s.DeclaredIn ts) globalDeclaration c := by
  refine findsFrom_names fun c' => ?_
  split
  · intro s hs
    cases hs
  · intro s hs
    obtain rfl := Option.some.inj hs
    exact declaredIn_names hc hword rfl

/-- At the word `local` the declaration that is found comes from the tokens. -/
lemma findsFrom_localDeclaration {c : Cursor} (hc : c.tokens <:+ ts)
    (hword : c.peek.IsWord "local") :
    FindsFrom (fun found => ∀ s ∈ found, s.DeclaredIn ts) localDeclaration c := by
  refine findsFrom_names fun c' s hs => ?_
  obtain rfl := Option.some.inj hs
  exact declaredIn_names hc hword rfl

/-- Behind `else` nothing is declared but what comes from the tokens, if this is so in blocks. -/
lemma finds_elseBlock (hblock : ∀ words, FindsStatements ts (block words)) :
    FindsStatements ts (elseBlock block) := by
  refine (walking_takeKeyword _).finds_bind fun isElse => ?_
  cases isElse with
  | true => exact hblock _
  | false => exact finds_pure (by simp)

/-- The declarations in the body of a function come from the tokens, if this is so in blocks. -/
lemma finds_functionDeclaration (hwalk : ∀ words, Walking (block words))
    (hblock : ∀ words, FindsStatements ts (block words)) :
    FindsStatement ts (functionDeclaration block) := by
  refine walking_advance.finds_bind fun _ => (walking_look _).finds_bind fun isName => ?_
  cases isName with
  | false => exact finds_giveUp _
  | true =>
    refine walking_advance.finds_bind fun name => walking_parameterList.finds_bind fun params =>
      (hblock _).bind (hwalk _) fun body hbody => finds_closedBy ?_ _ _
    exact Stmt.declaredIn_of_blocks rfl (by simpa [Stmt.childBlocks] using hbody)

/-- The declarations in a branch come from the tokens, if this is so in blocks. -/
lemma finds_branchStatement (hexpr : Walking expr) (hwalk : ∀ words, Walking (block words))
    (hblock : ∀ words, FindsStatements ts (block words)) :
    FindsStatement ts (branchStatement expr block) := by
  refine walking_advance.finds_bind fun _ => (walking_condition hexpr).finds_bind fun guard =>
    (hblock _).bind (hwalk _) fun thenBody hthen =>
      (finds_elseBlock hblock).bind (walking_elseBlock hwalk) fun elseBody helse =>
        finds_closedBy ?_ _ _
  exact Stmt.declaredIn_of_blocks rfl (by simpa [Stmt.childBlocks] using ⟨hthen, helse⟩)

/-- The declarations in a loop come from the tokens, if this is so in blocks. -/
lemma finds_loopStatement (hexpr : Walking expr) (hwalk : ∀ words, Walking (block words))
    (hblock : ∀ words, FindsStatements ts (block words)) :
    FindsStatement ts (loopStatement expr block) := by
  refine walking_advance.finds_bind fun _ => (walking_condition hexpr).finds_bind fun guard =>
    (hblock _).bind (hwalk _) fun body hbody => finds_closedBy ?_ _ _
  exact Stmt.declaredIn_of_blocks rfl (by simpa [Stmt.childBlocks] using hbody)

/-- The declarations in a case come from the tokens, if this is so in blocks. -/
lemma finds_switchItem (hexpr : Walking expr) (hwalk : ∀ words, Walking (block words))
    (hblock : ∀ words, FindsStatements ts (block words)) :
    Finds ts (fun found => ∀ case ∈ found, ∀ s ∈ CaseBlock.body case, s.DeclaredIn ts)
      (switchItem expr block) := by
  refine (walking_takeKeyword _).finds_bind fun isCase => ?_
  cases isCase with
  | false =>
    exact (walking_report _).finds_bind fun _ => walking_advance.finds_bind fun _ => finds_none
  | true =>
    refine hexpr.finds_bind fun value => ?_
    cases value with
    | none => exact finds_giveUp _
    | some value =>
      exact (hblock _).bind (hwalk _) fun body hbody => finds_pure (by simpa using hbody)

/-- The declarations in a choice come from the tokens, if this is so in blocks. -/
lemma finds_switchStatement (hexpr : Walking expr) (hwalk : ∀ words, Walking (block words))
    (hblock : ∀ words, FindsStatements ts (block words)) :
    FindsStatement ts (switchStatement expr block) := by
  refine walking_advance.finds_bind fun _ => hexpr.finds_bind fun selector => ?_
  cases selector with
  | none => exact finds_giveUp _
  | some selector =>
    have hitem := (stepping_switchItem hexpr hwalk).walking
    refine (finds_manyUntil (finds_switchItem hexpr hwalk hblock) hitem).bind
      (walking_manyUntil hitem) fun cases hcases => finds_closedBy ?_ _ _
    exact Stmt.declaredIn_of_blocks rfl (by simpa [Stmt.childBlocks] using hcases)

/-- A statement without blocks that is no declaration. -/
lemma finds_simple {s : Stmt} (hs : s.declaration? = none) (hblocks : s.childBlocks = []) :
    FindsStatement ts (pure (some s)) :=
  finds_pure (by simpa using Stmt.declaredIn_of_blocks hs (by simp [hblocks]))

/-- There is no declaration in a `return`. -/
lemma finds_returnStatement (hexpr : Walking expr) : FindsStatement ts (returnStatement expr) := by
  refine walking_advance.finds_bind fun _ => (walking_look _).finds_bind fun hasValue => ?_
  cases hasValue with
  | true => exact hexpr.finds_bind fun value => finds_simple rfl rfl
  | false => exact finds_simple rfl rfl

/-- There is no declaration in an assignment. -/
lemma finds_assignment (hexpr : Walking expr) : FindsStatement ts (assignment expr) := by
  refine walking_advance.finds_bind fun _ => walking_advance.finds_bind fun _ =>
    hexpr.finds_bind fun value => ?_
  cases value with
  | none => exact finds_giveUp _
  | some value => exact finds_simple rfl rfl

/-- There is no declaration in a call. -/
lemma finds_callStatement (hexpr : Walking expr) : FindsStatement ts (callStatement expr) := by
  refine walking_advance.finds_bind fun _ => (walking_takeSymbol _).finds_bind fun opening => ?_
  cases opening with
  | false => exact finds_giveUp _
  | true =>
    refine (walking_fuelled (walking_statementArgumentsWithin hexpr)).finds_bind fun args =>
      (walking_takeSymbol _).finds_bind fun closing => ?_
    cases closing with
    | true => exact finds_simple rfl rfl
    | false => exact finds_giveUp _

/-- A statement behind a reserved word. Only here it matters which token is at the cursor. -/
lemma findsFrom_keywordStatement (hexpr : Walking expr) (hwalk : ∀ words, Walking (block words))
    (hblock : ∀ words, FindsStatements ts (block words)) {c : Cursor} (hc : c.tokens <:+ ts)
    (hkind : c.peek.kind = .keyword) :
    FindsFrom (fun found => ∀ s ∈ found, s.DeclaredIn ts)
      (keywordStatement expr block c.peek.text) c := by
  unfold keywordStatement
  split
  · exact finds_functionDeclaration hwalk hblock c hc
  split
  · next hword => exact findsFrom_globalDeclaration hc ⟨hkind, hword⟩
  split
  · next hword => exact findsFrom_localDeclaration hc ⟨hkind, hword⟩
  split
  · exact walking_advance.finds_bind (fun _ => finds_simple rfl rfl) c hc
  split
  · exact finds_branchStatement hexpr hwalk hblock c hc
  split
  · exact finds_switchStatement hexpr hwalk hblock c hc
  split
  · exact finds_loopStatement hexpr hwalk hblock c hc
  split
  · exact finds_returnStatement hexpr c hc
  · exact (walking_report _).finds_bind (fun _ => walking_advance.finds_bind fun _ =>
      finds_none) c hc

/-- One level of statements. -/
lemma finds_statementWith (hexpr : Walking expr) (hwalk : ∀ words, Walking (block words))
    (hblock : ∀ words, FindsStatements ts (block words)) :
    FindsStatement ts (statementWith expr block) := by
  intro c hc
  refine findsFrom_look_bind ?_
  split
  · next hkind => exact findsFrom_keywordStatement hexpr hwalk hblock hc hkind
  · refine findsFrom_look_bind ?_
    split
    · exact finds_assignment hexpr c hc
    · exact finds_callStatement hexpr c hc
  · exact walking_advance.finds_bind (fun _ => finds_none) c hc
  · exact (walking_report _).finds_bind (fun _ => walking_advance.finds_bind fun _ =>
      finds_none) c hc

end Statements

/-- In a block that lies too deep nothing is found. -/
lemma finds_blockTooDeep (words : List String) : FindsStatements ts (blockTooDeep words) :=
  (walking_report _).finds_bind fun _ => (walking_skipBlock words).finds_bind fun _ =>
    finds_pure (by simp)

/-- The declarations in a statement come from the tokens. -/
lemma finds_statement (room : Nat) : FindsStatement ts (statement room) := by
  induction room with
  | zero =>
    exact finds_statementWith (walking_expression 0) (walking_block 0) finds_blockTooDeep
  | succ room ih =>
    exact finds_statementWith (walking_expression (room + 1)) (walking_block (room + 1)) fun _ =>
      finds_manyUntil ih (stepping_statement room).walking

/-- **All declarations of a program come from its tokens.** -/
theorem finds_program : FindsStatements ts program :=
  finds_manyUntil (finds_statement nestingLimit) (stepping_statement nestingLimit).walking

end Parser

end DialogueScript
