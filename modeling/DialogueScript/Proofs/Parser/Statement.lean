import DialogueScript.Proofs.Parser.Expression

set_option autoImplicit false

/-!
# Parsing statements

With some room for nesting the parser of statements recognizes exactly newline tokens and the
statements of the grammar that fit into the room.

Each form of a statement has an equivalence of its own: the parser of the form accepts exactly
what the premises of its rule say. They are put together once for all forms, and the levels of
nesting by induction on the room.

## Main definitions

* `DialogueScript.Grammar.StatementWithin`, `DialogueScript.Grammar.BlockWithin` — the statements
  and blocks that fit into some room.
* `DialogueScript.Grammar.LineWithin` — what stands directly in a block.
* `DialogueScript.Grammar.boundaryWords` — the words at which a block may end.

## Main results

* `DialogueScript.Parser.recognizes_statementWith` — one level of statements.
* `DialogueScript.Parser.recognizes_statement` — all levels.
-/

namespace DialogueScript

namespace Token

/-- One of some reserved words is the first, or the second, and so on. -/
lemma isKeywordIn_iff {t : Token} {words : List String} :
    t.isKeywordIn words = true ↔ ∃ word ∈ words, t.isKeyword word = true := by
  simp only [isKeywordIn, isKeyword, Text.isOneOfFolded, Bool.and_eq_true, List.any_eq_true]
  constructor
  · rintro ⟨hkind, word, hword, hsame⟩
    exact ⟨word, hword, hkind, hsame⟩
  · rintro ⟨word, hword, hkind, hsame⟩
    exact ⟨hkind, word, hword, hsame⟩

/-- A token is not two reserved words that differ also in small letters. -/
lemma isKeyword_ne {t : Token} {a b : String} (ha : t.isKeyword a = true)
    (hab : Text.sameFolded a b = false) : t.isKeyword b = false := by
  simp only [isKeyword, Text.sameFolded, Bool.and_eq_true, beq_iff_eq] at ha hab ⊢
  simp only [ha.2, hab, Bool.and_false]

end Token

namespace Grammar

/-! ## What fits into some room -/

/-- A statement that fits into the room. -/
def StatementWithin (room : Nat) : Reading Stmt :=
  fun ts s rest => Statement ts s rest ∧ s.nesting ≤ room

/-- A block that fits into the room, in which it needs a place of its own. -/
def BlockWithin (room : Nat) : Reading (List Stmt) :=
  fun ts body rest => Block Statement ts body rest ∧ Stmt.listNesting body < room

/-- The words at which a block may end. -/
def boundaryWords : List String :=
  ["endcode", "else", "endif", "endwhile", "case", "endswitch"]

/-- A block that fits into the room and ends with the input or in front of one of the words. -/
def BlockUntil (room : Nat) (boundaries : List String) : Reading (List Stmt) :=
  fun ts body rest => BlockWithin room ts body rest ∧
    ∀ t ∈ rest.head?, t.isKeywordIn boundaries = true

/-- A case that fits into the room and ends with the input, at the next case or at the end of the
`switch`. -/
def CaseWithin (room : Nat) : Reading CaseBlock :=
  fun ts block rest => ∃ word later mid, ts = word :: later ∧ word.isKeyword "case" = true ∧
    ExpressionWithin room later block.value mid ∧
    BlockUntil room ["case", "endswitch"] mid block.body rest

/-- What stands directly in a block: a newline token or a statement that fits into the room. -/
def LineWithin (room : Nat) : Reading (Option Stmt) :=
  fun ts r rest => (∃ t, ts = t :: rest ∧ t.kind = .newline ∧ r = none) ∨
    (StatementWithin room).option ts r rest

/-- A case takes a token. -/
lemma CaseWithin.takes {room : Nat} : (CaseWithin room).option.Takes := by
  rintro ts r rest ⟨block, rfl, word, later, mid, rfl, -, hvalue, ⟨hbody, -⟩, -⟩
  have h₁ := hvalue.1.length_lt
  have h₂ := Block.length_le hbody
  simp only [List.length_cons]
  omega

/-- A statement takes a token, and so does a newline. -/
lemma LineWithin.takes {room : Nat} : (LineWithin room).Takes := by
  rintro ts r rest (⟨t, rfl, -, -⟩ | ⟨s, rfl, hs, -⟩)
  · simp
  · exact hs.length_lt

/-- A block that is closed by a reserved word does not begin with a symbol. -/
lemma Block.not_isSymbol {ts rest : List Token} {body : List Stmt} {closing t : Token}
    {word symbol : String} (h : Block Statement ts body (closing :: rest))
    (hclosing : closing.isKeyword word = true) (ht : t ∈ ts.head?) : t.isSymbol symbol = false := by
  cases h with
  | done =>
    cases ht
    simp only [Token.isKeyword, Bool.and_eq_true, beq_iff_eq] at hclosing
    simp [Token.isSymbol, hclosing.1]
  | newline hkind _ =>
    cases ht
    simp [Token.isSymbol, hkind]
  | cons hs _ =>
    cases ts with
    | nil => simp at ht
    | cons u ts =>
      cases ht
      rcases hs.begins with hkind | ⟨hkind, -⟩
      · simp [Token.isSymbol, hkind]
      · simp [Token.isSymbol, hkind]

/-- What stands in a block does not begin with a word at which a block may end. -/
lemma LineWithin.not_isKeywordIn {room : Nat} {ts rest : List Token} {r : Option Stmt}
    (h : LineWithin room ts r rest) (n : Nat) {boundaries : List String}
    (hboundaries : boundaries ⊆ boundaryWords) :
    (⟨ts, n⟩ : Cursor).peek.isKeywordIn boundaries = false := by
  rcases h with ⟨t, rfl, hkind, -⟩ | ⟨s, -, hs, -⟩
  · simp [Token.isKeywordIn, hkind]
  · cases ts with
    | nil => rfl
    | cons t ts =>
      rcases hs.begins with hkind | ⟨hkind, htext⟩
      · simp [Token.isKeywordIn, hkind]
      · have hdistinct : ∀ a ∈ statementWords, ∀ b ∈ boundaryWords,
            Text.sameFolded a b = false := by
          decide
        have hnone : Text.isOneOfFolded t.text boundaries = false := by
          simpa [Text.isOneOfFolded] using
            fun word hword => hdistinct _ htext word (hboundaries hword)
        simp [Token.isKeywordIn, hnone]

/-- A repetition of cases is the list of cases of a `switch`, and each of them fits. -/
lemma cases_of_many {room : Nat} {ts rest : List Token} {cases : List CaseBlock}
    (h : (CaseWithin room).option.Many ts cases rest) :
    Cases (Block Statement) ts cases rest ∧ CaseBlock.listNesting cases ≤ room := by
  induction h with
  | done => exact ⟨.done, Nat.zero_le _⟩
  | item hr _ ih =>
    obtain ⟨⟨value, body⟩, rfl, word, later, mid, rfl, hword, hvalue, ⟨hbody, hroom⟩, -⟩ := hr
    exact ⟨.cons hword hvalue.1 hbody ih.1,
      Nat.max_le.mpr ⟨Nat.max_le.mpr ⟨hvalue.2, hroom⟩, ih.2⟩⟩

/-- The cases in front of an `endswitch` are a repetition of cases: behind each block stands the
next case or that word. -/
lemma many_of_cases {room : Nat} {ts rest : List Token} {cases : List CaseBlock}
    (h : Cases (Block Statement) ts cases rest) (hroom : CaseBlock.listNesting cases ≤ room)
    (hrest : ∀ t ∈ rest.head?, t.isKeyword "endswitch" = true) :
    (CaseWithin room).option.Many ts cases rest := by
  induction h with
  | done => exact .done
  | @cons word ts mid mid' rest value body cases hword hvalue hbody hcases ih =>
    obtain ⟨hroomCase, hroomLater⟩ := Nat.max_le.mp hroom
    obtain ⟨hroomValue, hroomBody⟩ := Nat.max_le.mp hroomCase
    have hend : ∀ t ∈ mid'.head?, t.isKeywordIn ["case", "endswitch"] = true := by
      intro t ht
      rw [Token.isKeywordIn_iff]
      cases hcases with
      | done => exact ⟨"endswitch", by simp, hrest t ht⟩
      | cons hnext _ _ _ =>
        cases ht
        exact ⟨"case", by simp, hnext⟩
    exact .item ⟨⟨value, body⟩, rfl, word, ts, mid, rfl, hword, ⟨hvalue, hroomValue⟩,
      ⟨hbody, hroomBody⟩, hend⟩ (ih hroomLater hrest)

/-- A repetition of newline tokens and statements is a block. -/
lemma many_line_iff {room : Nat} {ts rest : List Token} {body : List Stmt} :
    (LineWithin room).Many ts body rest ↔
      Block Statement ts body rest ∧ Stmt.listNesting body ≤ room := by
  constructor
  · intro h
    induction h with
    | done => exact ⟨.done, Nat.zero_le _⟩
    | item hr _ ih =>
      rcases hr with ⟨t, rfl, ht, rfl⟩ | ⟨s, rfl, hs, hroom⟩
      · exact ⟨.newline ht ih.1, ih.2⟩
      · exact ⟨.cons hs ih.1, Nat.max_le.mpr ⟨hroom, ih.2⟩⟩
  · rintro ⟨h, hroom⟩
    induction h with
    | done => exact .done
    | newline ht _ ih => exact .item (.inl ⟨_, rfl, ht, rfl⟩) (ih hroom)
    | cons hs _ ih =>
      obtain ⟨hroomStmt, hroomLater⟩ := Nat.max_le.mp hroom
      exact .item (.inr ⟨_, rfl, hs, hroomStmt⟩) (ih hroomLater)

end Grammar

namespace Parser

open Grammar

/-! ## Simple statements -/

/-- An assignment. -/
lemma accepts_assignment_iff {room : Nat} {name equals : Token} {ts : List Token} {n : Nat}
    {r : Option Stmt} {c' : Cursor} :
    Accepts (assignment (expression room)) ⟨name :: equals :: ts, n⟩ r c' ↔
      ∃ value rest, ExpressionWithin room ts value rest ∧ r = some (.assign name.text value) ∧
        c' = ⟨rest, n⟩ := by
  simp only [assignment, accepts_advance_bind, Cursor.peek_cons, Cursor.advance_mk, List.tail_cons,
    (recognizes_expression room).option_bind_iff, accepts_pure]

/-- The way in which the arguments of a call statement go on: they end at whatever is no comma. -/
def goOnLeniently (found : Option Expr) (loop : Parser (List Expr)) : Parser (List Expr) := do
  match found with
  | none => return []
  | some arg =>
    if ← takeSymbol "," then
      let later ← loop
      return arg :: later
    return [arg]

/-- The loop over the arguments of a call statement is one over items with commas. -/
lemma commaLoop_statementArguments {item : Parser (Option Expr)}
    (hsome : ∀ {c c'}, ¬ Accepts item c none c') :
    CommaLoop item (statementArgumentsWithin item) := by
  refine .of_round goOnLeniently hsome rfl (fun _ => rfl) fun _ => ?_
  simp only [goOnLeniently, accepts_takeSymbol_bind, accepts_bind_pure, accepts_pure, if_true,
    Bool.false_eq_true, if_false]

/-- A call statement. -/
lemma accepts_callStatement_iff {room : Nat} {name : Token} {ts : List Token} {n : Nat}
    {r : Option Stmt} {c' : Cursor} :
    Accepts (callStatement (expression room)) ⟨name :: ts, n⟩ r c' ↔
      ∃ opening later, ts = opening :: later ∧ opening.isSymbol "(" = true ∧
        ∃ args closing rest, (ExpressionWithin room).Separated later args (closing :: rest) ∧
          closing.isSymbol ")" = true ∧ r = some (.call name.text args) ∧ c' = ⟨rest, n⟩ := by
  have hloop : CommaLoop (expression room) (statementArgumentsWithin (expression room)) :=
    commaLoop_statementArguments (recognizes_expression room).not_accepts_none
  rw [callStatement, accepts_advance_bind, Cursor.peek_cons, Cursor.advance_mk, List.tail_cons,
    accepts_requireSymbol_iff (by simp)]
  refine exists_congr fun opening => exists_congr fun later =>
    and_congr_right fun _ => and_congr_right fun _ => ?_
  rw [if_pos rfl, hloop.closed_iff (recognizes_expression room) ExpressionWithin.takes
    ExpressionWithin.not_isSymbol (by simp)]
  simp only [if_true, accepts_pure]

/-- A loop over names and commas takes the longest run of them. -/
lemma accepts_nameListWithin_iff (fuel : Nat) {ts : List Token} {n : Nat} {names : List String}
    {c' : Cursor} (hfuel : ts.length ≤ fuel) :
    Accepts (nameListWithin fuel) ⟨ts, n⟩ names c' ↔
      ∃ rest, c' = ⟨rest, n⟩ ∧ NameList ts names rest := by
  induction fuel generalizing ts names with
  | zero =>
    obtain rfl : ts = [] := List.length_eq_zero_iff.mp (by omega)
    rw [nameListWithin, accepts_pure]
    constructor
    · rintro ⟨rfl, rfl⟩
      exact ⟨[], rfl, .done (by simp)⟩
    · rintro ⟨rest, rfl, hnames⟩
      cases hnames
      exact ⟨rfl, rfl⟩
  | succ fuel ih =>
    simp only [nameListWithin, accepts_atKind_bind, accepts_ite, accepts_advance_bind,
      accepts_bind_pure, accepts_takeSymbol_bind, accepts_pure, if_true, Bool.false_eq_true,
      if_false]
    cases ts with
    | nil =>
      rw [if_neg (by simp), if_neg (by simp)]
      constructor
      · rintro ⟨rfl, rfl⟩
        exact ⟨[], rfl, .done (by simp)⟩
      · rintro ⟨rest, rfl, hnames⟩
        cases hnames
        exact ⟨rfl, rfl⟩
    | cons t ts =>
      have hfuel' : ts.length ≤ fuel := by simpa using hfuel
      simp only [Cursor.peek_cons, Cursor.advance_mk, List.tail_cons, beq_iff_eq, ih hfuel']
      constructor
      · intro h
        split at h
        · rename_i hname
          obtain ⟨later, rfl, rest, rfl, hnames⟩ := h
          exact ⟨rest, rfl, .name hname hnames⟩
        · rename_i hname
          split at h
          · rename_i hcomma
            obtain ⟨rest, rfl, hnames⟩ := h
            exact ⟨rest, rfl, .comma hcomma hnames⟩
          · rename_i hcomma
            obtain ⟨rfl, rfl⟩ := h
            exact ⟨_, rfl, .done (by simpa using ⟨hname, by simpa using hcomma⟩)⟩
      · rintro ⟨rest, rfl, hnames⟩
        cases hnames with
        | done hrest =>
          obtain ⟨hname, hcomma⟩ := hrest t rfl
          rw [if_neg hname, if_neg (by simp [hcomma])]
          exact ⟨rfl, rfl⟩
        | name hname hnames =>
          rw [if_pos hname]
          exact ⟨_, rfl, rest, rfl, hnames⟩
        | comma hcomma hnames =>
          have hname : t.kind ≠ .identifier := by
            simp only [Token.isSymbol, Bool.and_eq_true, beq_iff_eq] at hcomma
            simp [hcomma.1]
          rw [if_neg hname, if_pos hcomma]
          exact ⟨rest, rfl, hnames⟩

/-- The list of names of a declaration. -/
lemma recognizes_nameList : (fuelled nameListWithin).Recognizes NameList :=
  fun ts _ _ _ => accepts_nameListWithin_iff ts.length (Nat.le_refl _)

/-- A declaration of variables of the whole program. -/
lemma accepts_globalDeclaration_iff {word : Token} {ts : List Token} {n : Nat}
    {r : Option Stmt} {c' : Cursor} :
    Accepts globalDeclaration ⟨word :: ts, n⟩ r c' ↔
      ∃ names rest, NameList ts names rest ∧ names ≠ [] ∧ r = some (.globals names) ∧
        c' = ⟨rest, n⟩ := by
  simp only [globalDeclaration, accepts_advance_bind, Cursor.advance_mk, List.tail_cons,
    recognizes_nameList.bind_iff, accepts_ite, accepts_pure, not_accepts_giveUp]
  refine exists_congr fun names => exists_congr fun rest => and_congr_right fun _ => ?_
  cases names <;> simp

/-- A declaration of variables of the current call. -/
lemma accepts_localDeclaration_iff {word : Token} {ts : List Token} {n : Nat}
    {r : Option Stmt} {c' : Cursor} :
    Accepts localDeclaration ⟨word :: ts, n⟩ r c' ↔
      ∃ names rest, NameList ts names rest ∧ r = some (.locals names) ∧ c' = ⟨rest, n⟩ := by
  simp only [localDeclaration, accepts_advance_bind, Cursor.advance_mk, List.tail_cons,
    recognizes_nameList.bind_iff, accepts_pure]

/-- A return statement has a value exactly if the next token is on its line. -/
lemma accepts_returnStatement_iff {room : Nat} {word : Token} {ts : List Token} {n : Nat}
    {r : Option Stmt} {c' : Cursor} :
    Accepts (returnStatement (expression room)) ⟨word :: ts, n⟩ r c' ↔
      (∀ t ∈ ts.head?, t.line ≠ word.line) ∧ r = some (.ret none) ∧ c' = ⟨ts, n⟩ ∨
        ∃ first later, ts = first :: later ∧ first.line = word.line ∧
          ∃ value rest, ExpressionWithin room ts value rest ∧ r = some (.ret (some value)) ∧
            c' = ⟨rest, n⟩ := by
  simp only [returnStatement, accepts_advance_bind, Cursor.peek_cons, Cursor.advance_mk,
    List.tail_cons, accepts_look_bind, accepts_ite, (recognizes_expression room).option_bind_iff,
    accepts_pure]
  cases ts with
  | nil => simp
  | cons first later =>
    by_cases hline : first.line = word.line
    · simp [hline]
    · simp [hline]

/-! ## Parameters -/

/-- A parameter is a name. -/
lemma recognizes_parameter : parameter.Recognizes (Reading.option Name) := by
  intro ts n r c'
  cases ts with
  | nil =>
    constructor
    · intro h
      simp [parameter] at h
    · rintro ⟨rest, -, a, -, ha⟩
      cases ha
  | cons t ts =>
    simp only [parameter, accepts_atKind_bind, Cursor.peek_cons, beq_iff_eq, accepts_ite,
      accepts_advance_bind, accepts_pure, not_accepts_giveUp, Cursor.advance_mk, List.tail_cons]
    constructor
    · intro h
      split at h
      · rename_i hname
        obtain ⟨rfl, rfl⟩ := h
        exact ⟨ts, rfl, _, rfl, .mk hname⟩
      · exact h.elim
    · rintro ⟨rest, rfl, a, rfl, ⟨hname⟩⟩
      rw [if_pos hname]
      exact ⟨rfl, rfl⟩

/-- The loop over parameters is one over items with commas. -/
lemma commaLoop_parameters : CommaLoop parameter parametersWithin :=
  .of_round (goOnStrictly .parameterSeparator) recognizes_parameter.not_accepts_none rfl
    (fun _ => rfl) (accepts_goOnStrictly_iff .parameterSeparator)

/-- The parameters of a declaration are recognized, and taken to be missing only where no
parenthesis opens. -/
lemma recognizes_parameterList :
    parameterList.Recognizes fun ts params rest => Parameters ts params rest ∧
      (rest = ts → ∀ t ∈ ts.head?, t.isSymbol "(" = false) := by
  have hhead : ∀ {t ts a rest}, Name (t :: ts) a rest → t.isSymbol ")" = false := by
    rintro t ts a rest ⟨hname⟩
    simp [Token.isSymbol, hname]
  have htakes : Reading.Takes Name := by
    rintro ts a rest ⟨_⟩
    simp
  intro ts n params c'
  rw [parameterList, accepts_takeSymbol_bind]
  simp only [if_true, Bool.false_eq_true, if_false, accepts_pure]
  rw [Cursor.advance_mk,
    commaLoop_parameters.closed_iff recognizes_parameter htakes hhead (by simp)]
  simp only [if_true, accepts_pure]
  constructor
  · intro h
    split at h
    · rename_i hopening
      obtain ⟨opening, ts, rfl, hopening⟩ := Cursor.exists_cons_of_isSymbol hopening
      obtain ⟨params, closing, rest, hparams, hclosing, rfl, rfl⟩ := h
      refine ⟨rest, rfl, .present hopening hparams hclosing, fun heq => ?_⟩
      have hlen := Name.separated_length_le hparams
      simp only [List.tail_cons, List.length_cons] at hlen
      rw [heq, List.length_cons] at hlen
      omega
    · rename_i hopening
      obtain ⟨rfl, rfl⟩ := h
      refine ⟨ts, rfl, .absent, fun _ t ht => ?_⟩
      cases ts with
      | nil => simp at ht
      | cons u ts =>
        cases ht
        simpa using hopening
  · rintro ⟨rest, rfl, hparams, hno⟩
    cases hparams with
    | absent =>
      rw [if_neg]
      · exact ⟨rfl, rfl⟩
      · cases ts with
        | nil => simp
        | cons u ts => simpa using hno rfl u rfl
    | present hopening hparams hclosing =>
      rw [if_pos (by simpa using hopening)]
      exact ⟨params, _, rest, hparams, hclosing, rfl, rfl⟩

/-! ## Statements with blocks -/

section Blocks

variable {room : Nat} {block : List String → Parser (List Stmt)}
  (hblock : ∀ boundaries ⊆ boundaryWords,
    (block boundaries).Recognizes (BlockUntil room boundaries))
  {ts : List Token} {n : Nat} {c' : Cursor}

include hblock in
/-- A block that has to be closed by a given word. -/
lemma accepts_closedBlock_iff {β : Type} {word : String} (hword : word ∈ boundaryWords)
    {g : List Stmt → Bool → Parser β} {b : β}
    (hfail : ∀ {body c}, ¬ Accepts (g body false) c b c') :
    Accepts (block [word] >>= fun body => takeKeyword word >>= g body) ⟨ts, n⟩ b c' ↔
      ∃ body closing rest, BlockWithin room ts body (closing :: rest) ∧
        closing.isKeyword word = true ∧ Accepts (g body true) ⟨rest, n⟩ b c' := by
  rw [(hblock [word] (by simpa using hword)).bind_iff]
  constructor
  · rintro ⟨body, mid, hbody, h⟩
    rw [accepts_requireKeyword_iff hfail] at h
    obtain ⟨closing, rest, rfl, hclosing, h⟩ := h
    exact ⟨body, closing, rest, hbody.1, hclosing, h⟩
  · rintro ⟨body, closing, rest, hbody, hclosing, h⟩
    refine ⟨body, closing :: rest, ⟨hbody, ?_⟩, ?_⟩
    · simpa [Token.isKeywordIn_iff] using hclosing
    · rw [accepts_requireKeyword_iff hfail]
      exact ⟨closing, rest, rfl, hclosing, h⟩

include hblock in
/-- A function declaration. -/
lemma accepts_functionDeclaration_iff {word : Token} {r : Option Stmt} :
    Accepts (functionDeclaration block) ⟨word :: ts, n⟩ r c' ↔
      ∃ name later, ts = name :: later ∧ name.kind = .identifier ∧
        ∃ params mid, (Parameters later params mid ∧
            (mid = later → ∀ t ∈ later.head?, t.isSymbol "(" = false)) ∧
          ∃ body closing rest, BlockWithin room mid body (closing :: rest) ∧
            closing.isKeyword "endcode" = true ∧
            r = some (.declare name.text params body) ∧ c' = ⟨rest, n⟩ := by
  simp only [functionDeclaration, accepts_advance_bind, accepts_atKind_bind, accepts_ite,
    Cursor.advance_mk, List.tail_cons, not_accepts_giveUp, recognizes_parameterList.bind_iff]
  cases ts with
  | nil => simp
  | cons name later =>
    simp only [Cursor.peek_cons, beq_iff_eq, List.tail_cons]
    constructor
    · intro h
      split at h
      · rename_i hname
        obtain ⟨params, mid, hparams, h⟩ := h
        rw [accepts_closedBlock_iff hblock (by simp [boundaryWords]) (by simp)] at h
        simp only [if_true, accepts_pure] at h
        exact ⟨name, later, rfl, hname, params, mid, hparams, h⟩
      · exact h.elim
    · rintro ⟨_, _, heq, hname, params, mid, hparams, h⟩
      cases heq
      rw [if_pos hname]
      refine ⟨params, mid, hparams, ?_⟩
      rw [accepts_closedBlock_iff hblock (by simp [boundaryWords]) (by simp)]
      simpa only [if_true, accepts_pure] using h

include hblock in
/-- A loop. -/
lemma accepts_loopStatement_iff {word : Token} {r : Option Stmt} :
    Accepts (loopStatement (expression room) block) ⟨word :: ts, n⟩ r c' ↔
      ∃ guard mid, ComparisonWithin room ts guard mid ∧
        ∃ body closing rest, BlockWithin room mid body (closing :: rest) ∧
          closing.isKeyword "endwhile" = true ∧ r = some (.loop guard body) ∧ c' = ⟨rest, n⟩ := by
  rw [loopStatement, accepts_advance_bind, Cursor.advance_mk, List.tail_cons,
    (recognizes_condition room).bind_iff]
  refine exists_congr fun guard => exists_congr fun mid => and_congr_right fun _ => ?_
  rw [accepts_closedBlock_iff hblock (by simp [boundaryWords]) (by simp)]
  simp only [if_true, accepts_pure]

include hblock in
/-- The block behind `else`, or nothing. -/
lemma recognizes_elseBlock : (elseBlock block).Recognizes fun ts body rest =>
    (∃ divider later, ts = divider :: later ∧ divider.isKeyword "else" = true ∧
        BlockUntil room ["endif"] later body rest) ∨
      (∀ t ∈ ts.head?, t.isKeyword "else" = false) ∧ body = [] ∧ rest = ts := by
  intro ts n body c'
  rw [elseBlock, accepts_takeKeyword_bind]
  simp only [if_true, Bool.false_eq_true, if_false, accepts_pure]
  rw [Cursor.advance_mk, hblock ["endif"] (by simp [boundaryWords])]
  constructor
  · intro h
    split at h
    · rename_i hdivider
      obtain ⟨divider, later, rfl, hdivider⟩ := Cursor.exists_cons_of_isKeyword hdivider
      obtain ⟨rest, rfl, hbody⟩ := h
      exact ⟨rest, rfl, .inl ⟨divider, later, rfl, hdivider, hbody⟩⟩
    · rename_i hdivider
      obtain ⟨rfl, rfl⟩ := h
      refine ⟨ts, rfl, .inr ⟨fun t ht => ?_, rfl, rfl⟩⟩
      cases ts with
      | nil => simp at ht
      | cons u ts =>
        cases ht
        simpa using hdivider
  · rintro ⟨rest, rfl, ⟨divider, later, rfl, hdivider, hbody⟩ | ⟨hno, rfl, rfl⟩⟩
    · rw [if_pos (by simpa using hdivider)]
      exact ⟨rest, rfl, hbody⟩
    · rw [if_neg]
      · exact ⟨rfl, rfl⟩
      · cases rest with
        | nil => simp
        | cons u rest => simpa using hno u rfl

include hblock in
/-- A branch, with one block or two. -/
lemma accepts_branchStatement_iff {word : Token} {r : Option Stmt} :
    Accepts (branchStatement (expression room) block) ⟨word :: ts, n⟩ r c' ↔
      ∃ guard mid, ComparisonWithin room ts guard mid ∧
        ((∃ thenBody closing rest, BlockWithin room mid thenBody (closing :: rest) ∧
            closing.isKeyword "endif" = true ∧ r = some (.branch guard thenBody []) ∧
            c' = ⟨rest, n⟩) ∨
          ∃ thenBody divider later elseBody closing rest,
            BlockWithin room mid thenBody (divider :: later) ∧ divider.isKeyword "else" = true ∧
            BlockWithin room later elseBody (closing :: rest) ∧
            closing.isKeyword "endif" = true ∧ r = some (.branch guard thenBody elseBody) ∧
            c' = ⟨rest, n⟩) := by
  rw [branchStatement, accepts_advance_bind, Cursor.advance_mk, List.tail_cons,
    (recognizes_condition room).bind_iff]
  refine exists_congr fun guard => exists_congr fun mid => and_congr_right fun _ => ?_
  rw [(hblock ["else", "endif"] (by simp [boundaryWords])).bind_iff]
  constructor
  · rintro ⟨thenBody, mid', hthen, h⟩
    rw [(recognizes_elseBlock hblock).bind_iff] at h
    obtain ⟨elseBody, mid'', helse, h⟩ := h
    rw [accepts_requireKeyword_iff (by simp)] at h
    obtain ⟨closing, rest, rfl, hclosing, h⟩ := h
    obtain ⟨rfl, rfl⟩ := accepts_pure.mp h
    rcases helse with ⟨divider, later, rfl, hdivider, helse⟩ | ⟨-, rfl, rfl⟩
    · exact .inr ⟨thenBody, divider, later, elseBody, closing, rest, hthen.1, hdivider, helse.1,
        hclosing, rfl, rfl⟩
    · exact .inl ⟨thenBody, closing, rest, hthen.1, hclosing, rfl, rfl⟩
  · rintro (⟨thenBody, closing, rest, hthen, hclosing, rfl, rfl⟩ |
      ⟨thenBody, divider, later, elseBody, closing, rest, hthen, hdivider, helse, hclosing, rfl,
        rfl⟩)
    · refine ⟨thenBody, closing :: rest, ⟨hthen, ?_⟩, ?_⟩
      · simp [Token.isKeywordIn_iff, hclosing]
      · rw [(recognizes_elseBlock hblock).bind_iff]
        refine ⟨[], closing :: rest, .inr ⟨?_, rfl, rfl⟩, ?_⟩
        · simpa using Token.isKeyword_ne hclosing (by decide)
        · rw [accepts_requireKeyword_iff (by simp)]
          exact ⟨closing, rest, rfl, hclosing, accepts_pure.mpr ⟨rfl, rfl⟩⟩
    · refine ⟨thenBody, divider :: later, ⟨hthen, ?_⟩, ?_⟩
      · simp [Token.isKeywordIn_iff, hdivider]
      · rw [(recognizes_elseBlock hblock).bind_iff]
        refine ⟨elseBody, closing :: rest, .inl ⟨divider, later, rfl, hdivider, helse, ?_⟩, ?_⟩
        · simp [Token.isKeywordIn_iff, hclosing]
        · rw [accepts_requireKeyword_iff (by simp)]
          exact ⟨closing, rest, rfl, hclosing, accepts_pure.mpr ⟨rfl, rfl⟩⟩

include hblock in
/-- A case of a `switch`. -/
lemma recognizes_switchItem :
    (switchItem (expression room) block).Recognizes (CaseWithin room).option := by
  intro ts n r c'
  rw [switchItem, accepts_requireKeyword_iff (by simp)]
  simp only [if_true, (recognizes_expression room).option_bind_iff, accepts_bind_pure,
    hblock ["case", "endswitch"] (by simp [boundaryWords]) _ _ _ _]
  constructor
  · rintro ⟨word, later, rfl, hword, value, mid, hvalue, body, rfl, rest, rfl, hbody⟩
    exact ⟨rest, rfl, ⟨value, body⟩, rfl, word, later, mid, rfl, hword, hvalue, hbody⟩
  · rintro ⟨rest, rfl, ⟨value, body⟩, rfl, word, later, mid, rfl, hword, hvalue, hbody⟩
    exact ⟨word, later, rfl, hword, value, mid, hvalue, body, rfl, rest, rfl, hbody⟩

include hblock in
/-- A choice between cases. -/
lemma accepts_switchStatement_iff {word : Token} {r : Option Stmt} :
    Accepts (switchStatement (expression room) block) ⟨word :: ts, n⟩ r c' ↔
      ∃ selector mid, ExpressionWithin room ts selector mid ∧
        ∃ cases closing rest, Cases (Block Statement) mid cases (closing :: rest) ∧
          CaseBlock.listNesting cases ≤ room ∧ closing.isKeyword "endswitch" = true ∧
          r = some (.select selector cases) ∧ c' = ⟨rest, n⟩ := by
  have hstop : ∀ {ts r rest} (n : Nat), (CaseWithin room).option ts r rest →
      (⟨ts, n⟩ : Cursor).peek.isKeyword "endswitch" = false := by
    rintro ts r rest n ⟨block, rfl, word, later, mid, rfl, hword, -⟩
    exact Token.isKeyword_ne hword (by decide)
  rw [switchStatement, accepts_advance_bind, Cursor.advance_mk, List.tail_cons,
    (recognizes_expression room).option_bind_iff]
  refine exists_congr fun selector => exists_congr fun mid => and_congr_right fun _ => ?_
  dsimp only
  rw [accepts_bind]
  constructor
  · rintro ⟨cases, mid', hcases, h⟩
    obtain ⟨mid', rfl, hmany, -⟩ :=
      (accepts_manyUntil_iff (recognizes_switchItem hblock) CaseWithin.takes hstop).mp hcases
    rw [accepts_requireKeyword_iff (by simp)] at h
    obtain ⟨closing, rest, rfl, hclosing, h⟩ := h
    obtain ⟨rfl, rfl⟩ := accepts_pure.mp h
    obtain ⟨hcases, hroom⟩ := cases_of_many hmany
    exact ⟨cases, closing, rest, hcases, hroom, hclosing, rfl, rfl⟩
  · rintro ⟨cases, closing, rest, hcases, hroom, hclosing, rfl, rfl⟩
    refine ⟨cases, ⟨closing :: rest, n⟩, ?_, ?_⟩
    · refine (accepts_manyUntil_iff (recognizes_switchItem hblock) CaseWithin.takes hstop).mpr
        ⟨closing :: rest, rfl, many_of_cases hcases hroom ?_, .inr hclosing⟩
      simpa using hclosing
    · rw [accepts_requireKeyword_iff (by simp)]
      exact ⟨closing, rest, rfl, hclosing, accepts_pure.mpr ⟨rfl, rfl⟩⟩

end Blocks

/-! ## All statements -/

section Statements

variable {room : Nat} {block : List String → Parser (List Stmt)}
  (hblock : ∀ boundaries ⊆ boundaryWords,
    (block boundaries).Recognizes (BlockUntil room boundaries))
  {t : Token} {ts : List Token} {n : Nat} {r : Option Stmt} {c' : Cursor}

include hblock in
/-- Whatever is accepted behind a reserved word is a statement of the grammar that fits. -/
lemma statement_of_accepts_keywordStatement (hkind : t.kind = .keyword)
    (h : Accepts (keywordStatement (expression room) block t.text) ⟨t :: ts, n⟩ r c') :
    ∃ rest, c' = ⟨rest, n⟩ ∧ (StatementWithin room).option (t :: ts) r rest := by
  unfold keywordStatement at h
  split at h
  · rename_i hword
    obtain ⟨name, later, rfl, hname, params, mid, ⟨hparams, -⟩, body, closing, rest,
      ⟨hbody, hroom⟩, hclosing, rfl, rfl⟩ := (accepts_functionDeclaration_iff hblock).mp h
    exact ⟨rest, rfl, _, rfl, .declare ⟨hkind, hword⟩ hname hparams hbody hclosing, hroom⟩
  split at h
  · rename_i hword
    obtain ⟨names, rest, hnames, hsome, rfl, rfl⟩ := accepts_globalDeclaration_iff.mp h
    exact ⟨rest, rfl, _, rfl, .globals ⟨hkind, hword⟩ hnames hsome, Nat.zero_le _⟩
  split at h
  · rename_i hword
    obtain ⟨names, rest, hnames, rfl, rfl⟩ := accepts_localDeclaration_iff.mp h
    exact ⟨rest, rfl, _, rfl, .locals ⟨hkind, hword⟩ hnames, Nat.zero_le _⟩
  split at h
  · rename_i hword
    rw [accepts_advance_bind] at h
    obtain ⟨rfl, rfl⟩ := accepts_pure.mp h
    exact ⟨ts, rfl, _, rfl, .exitCode ⟨hkind, hword⟩, Nat.zero_le _⟩
  split at h
  · rename_i hword
    obtain ⟨guard, mid, ⟨hguard, hroom⟩, h⟩ := (accepts_branchStatement_iff hblock).mp h
    rcases h with ⟨thenBody, closing, rest, ⟨hthen, hroomThen⟩, hclosing, rfl, rfl⟩ |
      ⟨thenBody, divider, later, elseBody, closing, rest, ⟨hthen, hroomThen⟩, hdivider,
        ⟨helse, hroomElse⟩, hclosing, rfl, rfl⟩
    · refine ⟨rest, rfl, _, rfl, .branch ⟨hkind, hword⟩ hguard hthen hclosing, ?_⟩
      simp only [Stmt.nesting, Stmt.listNesting]
      omega
    · refine ⟨rest, rfl, _, rfl,
        .branchElse ⟨hkind, hword⟩ hguard hthen hdivider helse hclosing, ?_⟩
      simp only [Stmt.nesting]
      omega
  split at h
  · rename_i hword
    obtain ⟨selector, mid, ⟨hselector, hroom⟩, cases, closing, rest, hcases, hroomCases, hclosing,
      rfl, rfl⟩ := (accepts_switchStatement_iff hblock).mp h
    exact ⟨rest, rfl, _, rfl, .select ⟨hkind, hword⟩ hselector hcases hclosing,
      Nat.max_le.mpr ⟨hroom, hroomCases⟩⟩
  split at h
  · rename_i hword
    obtain ⟨guard, mid, ⟨hguard, hroom⟩, body, closing, rest, ⟨hbody, hroomBody⟩, hclosing, rfl,
      rfl⟩ := (accepts_loopStatement_iff hblock).mp h
    exact ⟨rest, rfl, _, rfl, .loop ⟨hkind, hword⟩ hguard hbody hclosing,
      Nat.max_le.mpr ⟨hroom, hroomBody⟩⟩
  split at h
  · rename_i hword
    rcases accepts_returnStatement_iff.mp h with ⟨hline, rfl, rfl⟩ |
      ⟨first, later, rfl, hline, value, rest, ⟨hvalue, hroom⟩, rfl, rfl⟩
    · exact ⟨ts, rfl, _, rfl, .ret ⟨hkind, hword⟩ hline, Nat.zero_le _⟩
    · exact ⟨rest, rfl, _, rfl, .retValue ⟨hkind, hword⟩ hline hvalue, hroom⟩
  · simp at h

include hblock in
/-- Every statement of the grammar that fits is accepted, each behind its own word. -/
lemma accepts_statementWith_of_statement {s : Stmt} {rest : List Token}
    (hs : Statement ts s rest) (hroom : s.nesting ≤ room) :
    Accepts (statementWith (expression room) block) ⟨ts, n⟩ (some s) ⟨rest, n⟩ := by
  -- the parser chosen by a reserved word
  have hkeyword : ∀ {word : Token} {later : List Token} {text : String}, word.IsWord text →
      Accepts (keywordStatement (expression room) block text) ⟨word :: later, n⟩ (some s)
        ⟨rest, n⟩ →
      Accepts (statementWith (expression room) block) ⟨word :: later, n⟩ (some s) ⟨rest, n⟩ := by
    rintro word later text ⟨hkind, rfl⟩ h
    simpa only [statementWith, accepts_peek_bind, Cursor.peek_cons, hkind] using h
  cases hs with
  | assign hname hequals hvalue =>
    simp only [statementWith, accepts_peek_bind, Cursor.peek_cons, hname,
      accepts_nextIsSymbol_bind, Cursor.nextIsSymbol_cons_cons, hequals, if_true]
    exact accepts_assignment_iff.mpr ⟨_, _, ⟨hvalue, hroom⟩, rfl, rfl⟩
  | call hname hopening hargs hclosing =>
    simp only [statementWith, accepts_peek_bind, Cursor.peek_cons, hname,
      accepts_nextIsSymbol_bind, Cursor.nextIsSymbol_cons_cons,
      Token.isSymbol_ne hopening (show "(" ≠ "=" by decide), Bool.false_eq_true, if_false]
    exact accepts_callStatement_iff.mpr ⟨_, _, rfl, hopening, _, _, _,
      separated_within_iff.mpr ⟨hargs, hroom⟩, hclosing, rfl, rfl⟩
  | @declare word name closing ts mid rest params body hword hname hparams hbody hclosing =>
    refine hkeyword hword ((accepts_functionDeclaration_iff hblock).mpr ?_)
    refine ⟨name, ts, rfl, hname, params, mid, ⟨hparams, ?_⟩, body, closing, rest,
      ⟨hbody, hroom⟩, hclosing, rfl, rfl⟩
    rintro rfl t ht
    exact hbody.not_isSymbol hclosing ht
  | globals hword hnames hsome =>
    exact hkeyword hword (accepts_globalDeclaration_iff.mpr ⟨_, _, hnames, hsome, rfl, rfl⟩)
  | locals hword hnames =>
    exact hkeyword hword (accepts_localDeclaration_iff.mpr ⟨_, _, hnames, rfl, rfl⟩)
  | exitCode hword =>
    refine hkeyword hword ?_
    simp [keywordStatement]
  | branch hword hcondition hthen hclosing =>
    simp only [Stmt.nesting, Nat.max_le] at hroom
    refine hkeyword hword ((accepts_branchStatement_iff hblock).mpr ?_)
    exact ⟨_, _, ⟨hcondition, hroom.1⟩, .inl ⟨_, _, _, ⟨hthen, by omega⟩, hclosing, rfl, rfl⟩⟩
  | branchElse hword hcondition hthen hdivider helse hclosing =>
    simp only [Stmt.nesting, Nat.max_le] at hroom
    refine hkeyword hword ((accepts_branchStatement_iff hblock).mpr ?_)
    exact ⟨_, _, ⟨hcondition, hroom.1⟩, .inr ⟨_, _, _, _, _, _, ⟨hthen, by omega⟩, hdivider,
      ⟨helse, by omega⟩, hclosing, rfl, rfl⟩⟩
  | select hword hselector hcases hclosing =>
    obtain ⟨hroomSelector, hroomCases⟩ := Nat.max_le.mp hroom
    refine hkeyword hword ((accepts_switchStatement_iff hblock).mpr ?_)
    exact ⟨_, _, ⟨hselector, hroomSelector⟩, _, _, _, hcases, hroomCases, hclosing, rfl, rfl⟩
  | loop hword hcondition hbody hclosing =>
    obtain ⟨hroomGuard, hroomBody⟩ := Nat.max_le.mp hroom
    refine hkeyword hword ((accepts_loopStatement_iff hblock).mpr ?_)
    exact ⟨_, _, ⟨hcondition, hroomGuard⟩, _, _, _, ⟨hbody, hroomBody⟩, hclosing, rfl, rfl⟩
  | ret hword hrest =>
    exact hkeyword hword (accepts_returnStatement_iff.mpr (.inl ⟨hrest, rfl, rfl⟩))
  | retValue hword hline hvalue =>
    exact hkeyword hword (accepts_returnStatement_iff.mpr
      (.inr ⟨_, _, rfl, hline, _, _, ⟨hvalue, hroom⟩, rfl, rfl⟩))

include hblock in
/-- One level of statements: if blocks are recognized as far as they fit into the room, so is what
stands directly in a block. -/
lemma recognizes_statementWith :
    (statementWith (expression room) block).Recognizes (LineWithin room) := by
  intro ts n r c'
  constructor
  · intro h
    cases ts with
    | nil => simp [statementWith] at h
    | cons t ts =>
      simp only [statementWith, accepts_peek_bind, Cursor.peek_cons] at h
      split at h
      · rename_i hkind
        obtain ⟨rest, hc', hs⟩ := statement_of_accepts_keywordStatement hblock hkind h
        exact ⟨rest, hc', .inr hs⟩
      · rename_i hname
        cases ts with
        | nil =>
          simp only [accepts_nextIsSymbol_bind, Cursor.nextIsSymbol_singleton,
            Bool.false_eq_true, if_false] at h
          obtain ⟨opening, later, heq, -⟩ := accepts_callStatement_iff.mp h
          contradiction
        | cons u ts =>
          rw [accepts_nextIsSymbol_bind, accepts_ite] at h
          split at h
          · rename_i hequals
            rw [Cursor.nextIsSymbol_cons_cons] at hequals
            obtain ⟨value, rest, ⟨hvalue, hroom⟩, rfl, rfl⟩ := accepts_assignment_iff.mp h
            exact ⟨rest, rfl, .inr ⟨_, rfl, .assign hname hequals hvalue, hroom⟩⟩
          · obtain ⟨opening, later, heq, hopening, args, closing, rest, hargs, hclosing, rfl,
              rfl⟩ := accepts_callStatement_iff.mp h
            cases heq
            obtain ⟨hargs, hroom⟩ := separated_within_iff.mp hargs
            exact ⟨rest, rfl, .inr ⟨_, rfl, .call hname hopening hargs hclosing, hroom⟩⟩
      · rename_i hkind
        rw [accepts_advance_bind] at h
        obtain ⟨rfl, rfl⟩ := accepts_pure.mp h
        exact ⟨ts, rfl, .inl ⟨t, rfl, hkind, rfl⟩⟩
      · simp at h
  · rintro ⟨rest, rfl, ⟨t, rfl, hkind, rfl⟩ | ⟨s, rfl, hs, hroom⟩⟩
    · simp [statementWith, hkind]
    · exact accepts_statementWith_of_statement hblock hs hroom

end Statements

/-- A repetition of what a statement parser with some room reads, up to one of the words, is a
block that fits into one place more. -/
lemma recognizes_blockOf {room : Nat} {item : Parser (Option Stmt)}
    (hitem : item.Recognizes (LineWithin room)) {boundaries : List String}
    (hboundaries : boundaries ⊆ boundaryWords) :
    (blockOf item boundaries).Recognizes (BlockUntil (room + 1) boundaries) := by
  intro ts n body c'
  rw [blockOf, accepts_manyUntil_iff hitem LineWithin.takes
    (fun n h => h.not_isKeywordIn n hboundaries)]
  simp only [many_line_iff, BlockUntil, BlockWithin, Nat.lt_succ_iff]
  refine exists_congr fun rest => and_congr_right fun _ => and_congr_right fun _ => ?_
  cases rest with
  | nil => simp
  | cons t rest => simp

/-- **Statements**: with some room the parser recognizes newline tokens and the statements that
fit into the room.

**Proof sketch.** Induction on the room. Without room every block is reported, and the grammar has
none that fits. With room a block is a repetition of what fits into one place less. -/
theorem recognizes_statement (room : Nat) : (statement room).Recognizes (LineWithin room) := by
  induction room with
  | zero =>
    refine recognizes_statementWith fun boundaries _ ts n body c' => ?_
    simp [blockTooDeep, BlockUntil, BlockWithin]
  | succ room ih =>
    exact recognizes_statementWith fun boundaries hboundaries => recognizes_blockOf ih hboundaries

end Parser

end DialogueScript
