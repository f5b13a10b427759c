import DialogueScript.Proofs.Parser.Skipping
import DialogueScript.Proofs.Script.Pruning

set_option autoImplicit false

/-!
# Runs that cut what lies too deep

Where blocks and calls lie deeper inside each other than there is room for, a parser cuts them out
and reports each cut, but otherwise goes on as if nothing had happened. Runs in which nothing else
is reported compose like accepting runs do, and the numbers of their cuts add up.

For expressions on one line this says everything: a parser with some room gives what is left of the
expression when it is pruned to the room. For statements there is one rule for each form, which says
how a run over the statement is made of runs over its parts.

## Main definitions

* `DialogueScript.Parser.Cuts` — a run that reports a number of cuts and nothing else.

## Main results

* `DialogueScript.Parser.Cuts.bind` — such runs compose, and their numbers of cuts add up.
* `DialogueScript.Grammar.Expression.cuts` — expressions.
* `DialogueScript.Parser.cuts_loop` and its neighbours — statements, form by form.
-/

namespace DialogueScript

open Grammar

namespace Parser

variable {α β : Type} {p : Parser α} {f : α → Parser β} {a : α} {b : β} {c c' mid : Cursor}
  {t : Token} {ts rest : List Token} {m k k' : Nat} {symbol word : String}

/-! ## Runs -/

/-- At the cursor `c` the parser gives `a` and leaves the cursor `c'`. It reports `k` times that
something lies too deep, and nothing else. -/
structure Cuts (p : Parser α) (c : Cursor) (a : α) (k : Nat) (c' : Cursor) : Prop where
  /-- The result. -/
  value : (p c).value = a
  /-- The reports. -/
  faults : (p c).errors.map ParseError.fault = List.replicate k .nestingTooDeep
  /-- The cursor afterwards. -/
  rest : (p c).rest = c'

/-- A run without a report has no cuts. -/
lemma Accepts.cuts (h : Accepts p c a c') : Cuts p c a 0 c' := by
  rw [Accepts] at h
  exact ⟨by rw [h], by rw [h]; rfl, by rw [h]⟩

/-- What takes no token cuts nothing. -/
lemma cuts_pure : Cuts (pure a) c a 0 c :=
  ⟨rfl, rfl, rfl⟩

/-- **Runs compose**, and their numbers of cuts add up. -/
lemma Cuts.bind (hp : Cuts p c a k mid) (hf : Cuts (f a) mid b k' c') :
    Cuts (p >>= f) c b (k + k') c' := by
  obtain ⟨rfl, hfaults, rfl⟩ := hp
  refine ⟨hf.value, ?_, hf.rest⟩
  rw [← List.replicate_append_replicate, ← hfaults, ← hf.faults, ← List.map_append]
  rfl

/-- What comes first has all the cuts if what follows has none. -/
lemma Cuts.bind_zero (hp : Cuts p c a k mid) (hf : Cuts (f a) mid b 0 c') :
    Cuts (p >>= f) c b k c' :=
  hp.bind hf

/-- The last result may be rearranged. -/
lemma Cuts.map {g : α → β} (hp : Cuts p c a k c') :
    Cuts (p >>= fun a => pure (g a)) c (g a) k c' :=
  Cuts.bind_zero (f := fun a => pure (g a)) hp cuts_pure

/-- What follows a run without a report has all the cuts. -/
lemma Accepts.cuts_bind (hp : Accepts p c a mid) (hf : Cuts (f a) mid b k c') :
    Cuts (p >>= f) c b k c' := by
  have h := hp.cuts.bind hf
  rwa [Nat.zero_add] at h

/-- A cut is one report. -/
lemma cuts_tooDeep_bind {q : Parser β} (hq : Cuts q c b k c') :
    Cuts (report .nestingTooDeep >>= fun _ => q) c b (1 + k) c' := by
  have hreport : Cuts (report .nestingTooDeep) c () 1 c := ⟨rfl, rfl, rfl⟩
  exact hreport.bind hq

/-- A question about the cursor cuts nothing. -/
lemma cuts_look_bind {g : Cursor → α} (h : Cuts (f (g c)) c b k c') :
    Cuts (look g >>= f) c b k c' :=
  ⟨h.value, h.faults, h.rest⟩

/-- Taking a token cuts nothing. -/
lemma cuts_advance_bind {f : Token → Parser β} (h : Cuts (f t) ⟨ts, m⟩ b k c') :
    Cuts (advance >>= f) ⟨t :: ts, m⟩ b k c' :=
  ⟨h.value, h.faults, h.rest⟩

/-- A symbol that is there is taken. -/
lemma cuts_takeSymbol_bind {f : Bool → Parser β} (ht : t.isSymbol symbol = true)
    (h : Cuts (f true) ⟨ts, m⟩ b k c') : Cuts (takeSymbol symbol >>= f) ⟨t :: ts, m⟩ b k c' := by
  have htake : Accepts (takeSymbol symbol) ⟨t :: ts, m⟩ true ⟨ts, m⟩ := by
    simp [takeSymbol, ht]
  exact htake.cuts_bind h

/-- A symbol that is not there is not taken. -/
lemma cuts_takeSymbol_bind_of_not {f : Bool → Parser β} (hc : c.peek.isSymbol symbol = false)
    (h : Cuts (f false) c b k c') : Cuts (takeSymbol symbol >>= f) c b k c' := by
  have htake : Accepts (takeSymbol symbol) c false c := by
    simp [takeSymbol, hc]
  exact htake.cuts_bind h

/-- A reserved word that is there is taken. -/
lemma cuts_takeKeyword_bind {f : Bool → Parser β} (ht : t.isKeyword word = true)
    (h : Cuts (f true) ⟨ts, m⟩ b k c') : Cuts (takeKeyword word >>= f) ⟨t :: ts, m⟩ b k c' := by
  have htake : Accepts (takeKeyword word) ⟨t :: ts, m⟩ true ⟨ts, m⟩ := by
    rw [Accepts, takeKeyword, atKeyword, look_bind_apply]
    simp only [Cursor.peek_cons, ht, if_true]
    rfl
  exact htake.cuts_bind h

/-- A reserved word that is not there is not taken. -/
lemma cuts_takeKeyword_bind_of_not {f : Bool → Parser β} (hc : c.peek.isKeyword word = false)
    (h : Cuts (f false) c b k c') : Cuts (takeKeyword word >>= f) c b k c' := by
  have htake : Accepts (takeKeyword word) c false c := by
    rw [Accepts, takeKeyword, atKeyword, look_bind_apply]
    simp only [hc, Bool.false_eq_true, if_false]
    rfl
  exact htake.cuts_bind h

/-- A loop is given as much fuel as there are tokens. -/
lemma cuts_fuelled {loop : Nat → Parser α} (h : Cuts (loop c.tokens.length) c a k c') :
    Cuts (fuelled loop) c a k c' :=
  ⟨h.value, h.faults, h.rest⟩

section Repetition

variable {stop : Cursor → Bool} {item : Parser (Option α)}

/-- A repetition that is at its end cuts nothing. -/
lemma cuts_manyUntil_stop (h : (c.atEnd || stop c) = true) :
    Cuts (manyUntil stop item) c [] 0 c := by
  have haccepts : Accepts (manyUntil stop item) c [] c := manyUntil_of_stop h
  exact haccepts.cuts

/-- A repetition goes on behind an item, and the cuts in the item count. -/
lemma cuts_manyUntil_item (hstep : Stepping item) (hgo : (c.atEnd || stop c) = false)
    {found : Option α} {later : List α} (hitem : Cuts item c found k mid)
    (hlater : Cuts (manyUntil stop item) mid later k' c') :
    Cuts (manyUntil stop item) c (found.toList ++ later) (k + k') c' := by
  obtain ⟨rfl, hfaults, rfl⟩ := hitem
  obtain ⟨rfl, hlaterFaults, rfl⟩ := hlater
  have hround := manyUntil_of_go hstep hgo
  refine ⟨by rw [hround], ?_, by rw [hround]⟩
  rw [hround, List.map_append, hfaults, hlaterFaults, List.replicate_append_replicate]

end Repetition

/-! ## Expressions -/

/-- A call for which there is no room is cut: its arguments are passed over. -/
lemma cuts_expression_zero_call {name opening closing : Token} {args : List Expr} {line : Nat}
    (hname : name.kind = .identifier) (hopening : opening.isSymbol "(" = true)
    (hargs : Reading.Separated Expression ts args (closing :: rest))
    (hclosing : closing.isSymbol ")" = true) (hline : OnLine line (opening :: ts) rest) :
    Cuts (expression 0) ⟨name :: opening :: ts, m⟩ none 1 ⟨rest, m⟩ := by
  have hskip : tokensAfterGroup opening.line 0 (opening :: ts) = rest := by
    obtain ⟨hopeningLine, -⟩ :=
      hline.cons ((List.suffix_cons closing rest).trans (Expression.separated_suffix hargs))
    rw [hopeningLine]
    exact tokensAfterGroup_call hopening hargs hclosing hline
  have hpass : Accepts skipParenthesized ⟨opening :: ts, m⟩ () ⟨rest, m⟩ := by
    simp [Accepts, skipParenthesized, move, hskip]
  have hcut : Cuts callTooDeep ⟨opening :: ts, m⟩ none (1 + 0) ⟨rest, m⟩ :=
    cuts_tooDeep_bind hpass.cuts.map
  refine cuts_look_bind ?_
  simp only [Cursor.peek_cons, hname]
  refine cuts_look_bind (cuts_advance_bind ?_)
  simpa only [Cursor.nextIsSymbol_cons_cons, hopening, if_true] using hcut

/-- A call for which there is room is what is left of its arguments. -/
lemma cuts_expression_succ_call {name opening closing : Token} {args : List Expr} {room : Nat}
    (hname : name.kind = .identifier) (hopening : opening.isSymbol "(" = true)
    (hargs : Cuts (fuelled (argumentsWithin (expression room))) ⟨ts, m⟩ args k
      ⟨closing :: rest, m⟩)
    (hclosing : closing.isSymbol ")" = true) :
    Cuts (expression (room + 1)) ⟨name :: opening :: ts, m⟩ (some (.call name.text args)) k
      ⟨rest, m⟩ := by
  have hcall : Cuts (callArguments (expression room) name.text) ⟨opening :: ts, m⟩
      (some (.call name.text args)) k ⟨rest, m⟩ :=
    cuts_takeSymbol_bind hopening (hargs.bind_zero (cuts_takeSymbol_bind hclosing cuts_pure))
  refine cuts_look_bind ?_
  simp only [Cursor.peek_cons, hname]
  refine cuts_look_bind (cuts_advance_bind ?_)
  simpa only [Cursor.nextIsSymbol_cons_cons, hopening, if_true] using hcall

/-- One round of the loop over the arguments of a call expression. -/
lemma cuts_arguments_item {item : Parser (Option Expr)} {found : Option Expr} {later : List Expr}
    {comma : Token} {fuel : Nat} (hgo : (c.atEnd || c.peek.isSymbol ")") = false)
    (hitem : Cuts item c found k ⟨comma :: rest, m⟩) (hcomma : comma.isSymbol "," = true)
    (hlater : Cuts (argumentsWithin item fuel) ⟨rest, m⟩ later k' c') :
    Cuts (argumentsWithin item (fuel + 1)) c (found.toList ++ later) (k + k') c' := by
  refine cuts_look_bind ?_
  simp only [hgo, Bool.false_eq_true, if_false]
  exact hitem.bind (cuts_takeSymbol_bind hcomma hlater.map)

/-- The last round of the loop over the arguments of a call expression. -/
lemma cuts_arguments_last {item : Parser (Option Expr)} {found : Option Expr} {fuel : Nat}
    (hgo : (c.atEnd || c.peek.isSymbol ")") = false) (hitem : Cuts item c found k c')
    (hclose : c'.peek.isSymbol ")" = true) :
    Cuts (argumentsWithin item (fuel + 1)) c found.toList k c' := by
  refine cuts_look_bind ?_
  simp only [hgo, Bool.false_eq_true, if_false]
  refine hitem.bind_zero (cuts_takeSymbol_bind_of_not (Token.isSymbol_ne hclose (by decide))
    (cuts_look_bind ?_))
  simp only [hclose, if_true]
  exact cuts_pure

/-- The loop ends at a closing parenthesis. -/
lemma cuts_arguments_nil {item : Parser (Option Expr)} {fuel : Nat}
    (hclose : c.peek.isSymbol ")" = true) : Cuts (argumentsWithin item fuel) c [] 0 c := by
  cases fuel with
  | zero => exact cuts_pure
  | succ fuel =>
    refine cuts_look_bind ?_
    simp only [hclose, Bool.or_true, if_true]
    exact cuts_pure

end Parser

namespace Grammar

open DialogueScript.Parser

variable {line m : Nat}

/-- A loop over a list in parentheses does not stop at an expression. -/
lemma Expression.goes {ts rest : List Token} {e : Expr} (h : Expression ts e rest) (m : Nat) :
    ((⟨ts, m⟩ : Cursor).atEnd || (⟨ts, m⟩ : Cursor).peek.isSymbol ")") = false := by
  cases ts with
  | nil => exact absurd h.length_lt (Nat.not_lt_zero _)
  | cons t ts =>
    have hwithin : ExpressionWithin e.nesting (t :: ts) e rest := ⟨h, Nat.le_refl _⟩
    simpa using hwithin.not_isSymbol

/-- An expression that fits into the room is accepted as it is. -/
lemma accepts_expression {ts rest : List Token} {e : Expr} {room : Nat} (h : Expression ts e rest)
    (hroom : e.nesting ≤ room) : Accepts (expression room) ⟨ts, m⟩ (some e) ⟨rest, m⟩ :=
  (recognizes_expression room ts m (some e) ⟨rest, m⟩).mpr ⟨rest, rfl, e, rfl, h, hroom⟩

mutual

/-- **Expressions on one line are pruned to the room**, and each cut is reported. -/
lemma Expression.cuts {ts rest : List Token} {e : Expr} (room : Nat) :
    Expression ts e rest → OnLine line ts rest →
      Cuts (expression room) ⟨ts, m⟩ (e.prune? room) (e.cuts room) ⟨rest, m⟩
  | .string ht, _ => (accepts_expression (.string ht) (Nat.zero_le _)).cuts
  | .number ht, _ => (accepts_expression (.number ht) (Nat.zero_le _)).cuts
  | .boolean ht, _ => (accepts_expression (.boolean ht) (Nat.zero_le _)).cuts
  | .var hname hrest, _ => (accepts_expression (.var hname hrest) (Nat.zero_le _)).cuts
  | @Expression.call name opening closing ts rest args hname hopening hargs hclosing, hline => by
    have hsuffix := Expression.separated_suffix hargs
    have hrest : rest <:+ ts := (List.suffix_cons closing rest).trans hsuffix
    obtain ⟨-, hline⟩ := hline.cons (hrest.trans (List.suffix_cons opening ts))
    cases room with
    | zero => exact cuts_expression_zero_call hname hopening hargs hclosing hline
    | succ room =>
      obtain ⟨-, hline⟩ := hline.cons hrest
      obtain ⟨hargsLine, -⟩ := hline.split hsuffix (List.suffix_cons closing rest)
      have hlist := cuts_fuelled (Expression.separated_cuts room hargs hargsLine
        (show (⟨closing :: rest, m⟩ : Cursor).peek.isSymbol ")" = true from hclosing)
        (Nat.le_refl _))
      exact cuts_expression_succ_call hname hopening hlist hclosing

/-- The arguments of a call expression are pruned one by one. -/
lemma Expression.separated_cuts {ts rest : List Token} {es : List Expr} (room : Nat) :
    Reading.Separated Expression ts es rest → OnLine line ts rest →
      (⟨rest, m⟩ : Cursor).peek.isSymbol ")" = true → {fuel : Nat} → ts.length ≤ fuel →
      Cuts (argumentsWithin (expression room) fuel) ⟨ts, m⟩ (Expr.listPrune room es)
        (Expr.listCuts room es) ⟨rest, m⟩
  | .nil, _, hclose, _, _ => cuts_arguments_nil hclose
  | .last ha, hline, hclose, fuel, hfuel => by
    have hshort := ha.length_lt
    obtain ⟨fuel, rfl⟩ : ∃ n, fuel = n + 1 := ⟨fuel - 1, by omega⟩
    have hlist : Cuts (argumentsWithin (expression room) (fuel + 1)) ⟨ts, m⟩ _ _ ⟨_, m⟩ :=
      cuts_arguments_last (ha.goes m) (Expression.cuts room ha hline) hclose
    simpa [Expr.listPrune, Expr.listCuts] using hlist
  | @Reading.Separated.more _ _ _ mid _ comma _ _ ha hcomma has, hline, hclose, fuel, hfuel => by
    have hshort := ha.length_lt
    rw [List.length_cons] at hshort
    obtain ⟨fuel, rfl⟩ : ∃ n, fuel = n + 1 := ⟨fuel - 1, by omega⟩
    have hsuffix := Expression.separated_suffix has
    obtain ⟨hitemLine, hline⟩ :=
      hline.split ha.suffix (hsuffix.trans (List.suffix_cons comma mid))
    obtain ⟨-, hline⟩ := hline.cons hsuffix
    exact cuts_arguments_item (ha.goes m) (Expression.cuts room ha hitemLine) hcomma
      (Expression.separated_cuts room has hline hclose (by omega))

end

variable {ts rest : List Token} {room : Nat}

/-- Of an expression that stands directly in a statement something is left. -/
lemma Expression.cuts_operand {e : Expr} (h : Expression ts e rest) (hline : OnLine line ts rest)
    (hfree : room = 0 → e.nesting = 0) :
    Cuts (expression room) ⟨ts, m⟩ (some (e.prune room)) (e.cuts room) ⟨rest, m⟩ := by
  rw [← Expr.prune?_eq_some hfree]
  exact h.cuts room hline

/-- Conditions on one line are pruned to the room. -/
lemma Comparison.cuts {condition : Condition} (h : Comparison ts condition rest)
    (hline : OnLine line ts rest) (hfree : ∀ e ∈ condition.operands, room = 0 → e.nesting = 0) :
    Cuts (Parser.condition (expression room)) ⟨ts, m⟩ (condition.prune room)
      (condition.cuts room) ⟨rest, m⟩ := by
  obtain ⟨hleft, hequals, hright⟩ := h
  have hsuffix := hright.suffix
  obtain ⟨hleftLine, hline⟩ := hline.split hleft.suffix (hsuffix.trans (List.suffix_cons _ _))
  obtain ⟨-, hrightLine⟩ := hline.cons hsuffix
  have hleftRun := hleft.cuts_operand (m := m) hleftLine (hfree _ List.mem_cons_self)
  have hrightRun := hright.cuts_operand (m := m) hrightLine
    (hfree _ (List.mem_cons_of_mem _ List.mem_cons_self))
  exact hleftRun.bind (cuts_takeSymbol_bind hequals (hrightRun.bind_zero cuts_pure))

/-- The arguments of a call statement are pruned one by one, and none of them is left out. -/
lemma Expression.separated_cuts_operands {es : List Expr}
    (h : Reading.Separated Expression ts es rest) (hline : OnLine line ts rest)
    (hclose : (⟨rest, m⟩ : Cursor).peek.isSymbol ")" = true)
    (hfree : ∀ e ∈ es, room = 0 → e.nesting = 0) {fuel : Nat} (hfuel : ts.length ≤ fuel) :
    Cuts (statementArgumentsWithin (expression room) fuel) ⟨ts, m⟩ (es.map (Expr.prune room))
      (Expr.listCuts room es) ⟨rest, m⟩ := by
  induction h generalizing fuel with
  | nil =>
    cases fuel with
    | zero => exact cuts_pure
    | succ fuel =>
      refine cuts_look_bind ?_
      simp only [hclose, Bool.or_true, if_true]
      exact cuts_pure
  | @last ts rest e he =>
    have hshort := he.length_lt
    obtain ⟨fuel, rfl⟩ : ∃ n, fuel = n + 1 := ⟨fuel - 1, by omega⟩
    refine cuts_look_bind ?_
    simp only [he.goes m, Bool.false_eq_true, if_false]
    exact (he.cuts_operand hline (hfree e (by simp))).bind_zero
      (cuts_takeSymbol_bind_of_not (Token.isSymbol_ne hclose (by decide)) cuts_pure)
  | @more ts mid rest comma e es he hcomma hes ih =>
    have hshort := he.length_lt
    rw [List.length_cons] at hshort
    obtain ⟨fuel, rfl⟩ : ∃ n, fuel = n + 1 := ⟨fuel - 1, by omega⟩
    have hsuffix := Expression.separated_suffix hes
    obtain ⟨hitemLine, hline⟩ :=
      hline.split he.suffix (hsuffix.trans (List.suffix_cons comma mid))
    obtain ⟨-, hline⟩ := hline.cons hsuffix
    have hlater := ih hline hclose (fun e he => hfree e (List.mem_cons_of_mem _ he))
      (show mid.length ≤ fuel by omega)
    refine cuts_look_bind ?_
    simp only [he.goes m, Bool.false_eq_true, if_false]
    exact (he.cuts_operand hitemLine (hfree e (by simp))).bind
      (cuts_takeSymbol_bind hcomma hlater.map)

end Grammar

namespace Parser

/-! ## Statements -/

section Statements

variable {expr : Parser (Option Expr)} {block : List String → Parser (List Stmt)}
  {name opening closing divider equals : Token} {ts mid mid' rest : List Token} {c' : Cursor}
  {m k k' k'' : Nat} {word : Token} {body elseBody : List Stmt}

/-- A reserved word chooses its form. -/
lemma cuts_keyword {text : String} {r : Option Stmt} (hword : word.IsWord text)
    (h : Cuts (keywordStatement expr block text) ⟨word :: ts, m⟩ r k c') :
    Cuts (statementWith expr block) ⟨word :: ts, m⟩ r k c' := by
  obtain ⟨hkind, rfl⟩ := hword
  refine cuts_look_bind ?_
  simpa only [Cursor.peek_cons, hkind] using h

/-- An assignment cuts what its value cuts. -/
lemma cuts_assign {value : Expr} (hname : name.kind = .identifier)
    (hequals : equals.isSymbol "=" = true) (hvalue : Cuts expr ⟨ts, m⟩ (some value) k c') :
    Cuts (statementWith expr block) ⟨name :: equals :: ts, m⟩ (some (.assign name.text value)) k
      c' := by
  refine cuts_look_bind ?_
  simp only [Cursor.peek_cons, hname]
  refine cuts_look_bind ?_
  simp only [Cursor.nextIsSymbol_cons_cons, hequals, if_true]
  exact cuts_advance_bind (cuts_advance_bind (hvalue.bind_zero cuts_pure))

/-- A call statement cuts what its arguments cut; it is itself no call expression. -/
lemma cuts_call {args : List Expr} (hname : name.kind = .identifier)
    (hopening : opening.isSymbol "(" = true)
    (hargs : Cuts (fuelled (statementArgumentsWithin expr)) ⟨ts, m⟩ args k ⟨closing :: rest, m⟩)
    (hclosing : closing.isSymbol ")" = true) :
    Cuts (statementWith expr block) ⟨name :: opening :: ts, m⟩ (some (.call name.text args)) k
      ⟨rest, m⟩ := by
  refine cuts_look_bind ?_
  simp only [Cursor.peek_cons, hname]
  refine cuts_look_bind ?_
  simp only [Cursor.nextIsSymbol_cons_cons, Token.isSymbol_ne hopening (show "(" ≠ "=" by decide),
    Bool.false_eq_true, if_false]
  exact cuts_advance_bind (cuts_takeSymbol_bind hopening
    (hargs.bind_zero (cuts_takeSymbol_bind hclosing cuts_pure)))

/-- A declaration of a function cuts what its body cuts. -/
lemma cuts_declare {params : List String} (hword : word.IsWord "code")
    (hname : name.kind = .identifier) (hparams : Accepts parameterList ⟨ts, m⟩ params ⟨mid, m⟩)
    (hbody : Cuts (block ["endcode"]) ⟨mid, m⟩ body k ⟨closing :: rest, m⟩)
    (hclosing : closing.isKeyword "endcode" = true) :
    Cuts (statementWith expr block) ⟨word :: name :: ts, m⟩
      (some (.declare name.text params body)) k ⟨rest, m⟩ := by
  refine cuts_keyword hword (cuts_advance_bind (cuts_look_bind ?_))
  simp only [Cursor.peek_cons, hname, beq_self_eq_true, if_true]
  exact cuts_advance_bind (hparams.cuts_bind
    (hbody.bind_zero (cuts_takeKeyword_bind hclosing cuts_pure)))

/-- A branch without `else` cuts what its condition and its block cut. -/
lemma cuts_branch {guard : Condition} (hword : word.IsWord "if")
    (hguard : Cuts (condition expr) ⟨ts, m⟩ guard k ⟨mid, m⟩)
    (hbody : Cuts (block ["else", "endif"]) ⟨mid, m⟩ body k' ⟨closing :: rest, m⟩)
    (hclosing : closing.isKeyword "endif" = true) :
    Cuts (statementWith expr block) ⟨word :: ts, m⟩ (some (.branch guard body [])) (k + k')
      ⟨rest, m⟩ := by
  have helse : Cuts (elseBlock block) ⟨closing :: rest, m⟩ [] 0 ⟨closing :: rest, m⟩ :=
    cuts_takeKeyword_bind_of_not (Token.isKeyword_ne hclosing (by decide)) cuts_pure
  exact cuts_keyword hword (cuts_advance_bind (hguard.bind (hbody.bind_zero
    (helse.bind_zero (cuts_takeKeyword_bind hclosing cuts_pure)))))

/-- A branch with `else` cuts what its condition and both of its blocks cut. -/
lemma cuts_branchElse {guard : Condition} (hword : word.IsWord "if")
    (hguard : Cuts (condition expr) ⟨ts, m⟩ guard k ⟨mid, m⟩)
    (hbody : Cuts (block ["else", "endif"]) ⟨mid, m⟩ body k' ⟨divider :: mid', m⟩)
    (hdivider : divider.isKeyword "else" = true)
    (helse : Cuts (block ["endif"]) ⟨mid', m⟩ elseBody k'' ⟨closing :: rest, m⟩)
    (hclosing : closing.isKeyword "endif" = true) :
    Cuts (statementWith expr block) ⟨word :: ts, m⟩ (some (.branch guard body elseBody))
      (k + (k' + k'')) ⟨rest, m⟩ := by
  have helse : Cuts (elseBlock block) ⟨divider :: mid', m⟩ elseBody k'' ⟨closing :: rest, m⟩ :=
    cuts_takeKeyword_bind hdivider helse
  exact cuts_keyword hword (cuts_advance_bind (hguard.bind (hbody.bind
    (helse.bind_zero (cuts_takeKeyword_bind hclosing cuts_pure)))))

/-- A loop cuts what its condition and its body cut. -/
lemma cuts_loop {guard : Condition} (hword : word.IsWord "while")
    (hguard : Cuts (condition expr) ⟨ts, m⟩ guard k ⟨mid, m⟩)
    (hbody : Cuts (block ["endwhile"]) ⟨mid, m⟩ body k' ⟨closing :: rest, m⟩)
    (hclosing : closing.isKeyword "endwhile" = true) :
    Cuts (statementWith expr block) ⟨word :: ts, m⟩ (some (.loop guard body)) (k + k')
      ⟨rest, m⟩ :=
  cuts_keyword hword (cuts_advance_bind (hguard.bind
    (hbody.bind_zero (cuts_takeKeyword_bind hclosing cuts_pure))))

/-- A case cuts what its value and its body cut. -/
lemma cuts_case {value : Expr} (hword : word.isKeyword "case" = true)
    (hvalue : Cuts expr ⟨ts, m⟩ (some value) k ⟨mid, m⟩)
    (hbody : Cuts (block ["case", "endswitch"]) ⟨mid, m⟩ body k' c') :
    Cuts (switchItem expr block) ⟨word :: ts, m⟩ (some ⟨value, body⟩) (k + k') c' :=
  cuts_takeKeyword_bind hword (hvalue.bind hbody.map)

/-- A choice cuts what its selector and its cases cut. -/
lemma cuts_select {selector : Expr} {cases : List CaseBlock} (hword : word.IsWord "switch")
    (hselector : Cuts expr ⟨ts, m⟩ (some selector) k ⟨mid, m⟩)
    (hcases : Cuts (manyUntil (fun c => c.peek.isKeyword "endswitch") (switchItem expr block))
      ⟨mid, m⟩ cases k' ⟨closing :: rest, m⟩)
    (hclosing : closing.isKeyword "endswitch" = true) :
    Cuts (statementWith expr block) ⟨word :: ts, m⟩ (some (.select selector cases)) (k + k')
      ⟨rest, m⟩ :=
  cuts_keyword hword (cuts_advance_bind (hselector.bind
    (hcases.bind_zero (cuts_takeKeyword_bind hclosing cuts_pure))))

/-- A `return` with a value on its line cuts what the value cuts. -/
lemma cuts_ret {value : Expr} {first : Token} (hword : word.IsWord "return")
    (hline : first.line = word.line)
    (hvalue : Cuts expr ⟨first :: ts, m⟩ (some value) k c') :
    Cuts (statementWith expr block) ⟨word :: first :: ts, m⟩ (some (.ret (some value))) k c' := by
  refine cuts_keyword hword (cuts_advance_bind (cuts_look_bind ?_))
  simp only [Cursor.atEnd_mk, Cursor.peek_cons, List.isEmpty_cons, hline, beq_self_eq_true,
    Bool.not_false, Bool.and_self, if_true]
  exact hvalue.map

end Statements

/-- A block for which there is no room is cut: it is passed over. -/
lemma cuts_blockTooDeep {boundaries : List String} (hboundaries : boundaries ⊆ boundaryWords)
    {ts rest : List Token} {body : List Stmt} {closing : Token} {m : Nat}
    (h : Block Statement ts body (closing :: rest))
    (hclosing : closing.isKeywordIn boundaries = true) :
    Cuts (blockTooDeep boundaries) ⟨ts, m⟩ [] 1 ⟨closing :: rest, m⟩ := by
  have hskip : tokensFromBoundary boundaries 0 ts = closing :: rest := by
    rw [h.tokensFromBoundary_eq hboundaries, tokensFromBoundary_of_boundary hclosing]
  have hpass : Accepts (skipBlock boundaries) ⟨ts, m⟩ () ⟨closing :: rest, m⟩ := by
    simp [Accepts, skipBlock, move, hskip]
  have hcut : Cuts (blockTooDeep boundaries) ⟨ts, m⟩ [] (1 + 0) ⟨closing :: rest, m⟩ :=
    cuts_tooDeep_bind hpass.cuts.map
  exact hcut

end Parser

end DialogueScript
