import DialogueScript.Proofs.Parser.Acceptance

set_option autoImplicit false

/-!
# Renumbering lines

A parser looks at the numbers of lines only to see whether two tokens stand on the same line, and to
say where a fault was noticed. So if the lines of all tokens are renumbered without two of them
becoming one, then the parser does the same, whatever the tokens are, and only the lines in its
reports are renumbered.

## Main definitions

* `DialogueScript.Token.renumber`, `DialogueScript.ParseError.renumber`,
  `DialogueScript.Cursor.renumber` — other numbers for the lines.
* `DialogueScript.Parser.Renumbers` — a parser does on renumbered lines what another one does.

## Main results

* `DialogueScript.Parser.renumbers_expression`, `DialogueScript.Parser.renumbers_statement` —
  expressions and statements.
* `DialogueScript.Parser.renumbers_program` — programs.
-/

namespace DialogueScript

/-! ## Other numbers for the lines -/

/-- The token with another number for its line. -/
def Token.renumber (g : Nat → Nat) (token : Token) : Token :=
  { token with line := g token.line }

/-- The report with another number for its line. -/
def ParseError.renumber (g : Nat → Nat) (error : ParseError) : ParseError :=
  { error with line := g error.line }

/-- The cursor with other numbers for the lines. -/
def Cursor.renumber (g : Nat → Nat) (cursor : Cursor) : Cursor :=
  ⟨cursor.tokens.map (Token.renumber g), g cursor.endLine⟩

/-- What a parser gives, with other numbers for the lines. -/
def Parsed.renumber {α : Type} (g : Nat → Nat) (parsed : Parsed α) : Parsed α :=
  ⟨parsed.value, parsed.errors.map (ParseError.renumber g), parsed.rest.renumber g⟩

variable {g : Nat → Nat}

namespace Cursor

/-- The token at the cursor is renumbered with the cursor. -/
@[simp] lemma peek_renumber (c : Cursor) : (c.renumber g).peek = c.peek.renumber g := by
  obtain ⟨ts, n⟩ := c
  cases ts <;> rfl

/-- The input ends where it ended. -/
@[simp] lemma atEnd_renumber (c : Cursor) : (c.renumber g).atEnd = c.atEnd := by
  obtain ⟨ts, n⟩ := c
  cases ts <;> rfl

/-- It is the same to advance before renumbering or after it. -/
@[simp] lemma advance_renumber (c : Cursor) : (c.renumber g).advance = c.advance.renumber g := by
  obtain ⟨ts, n⟩ := c
  cases ts <;> rfl

/-- Symbols stay where they are. -/
@[simp] lemma nextIsSymbol_renumber (c : Cursor) (symbol : String) :
    (c.renumber g).nextIsSymbol symbol = c.nextIsSymbol symbol := by
  obtain ⟨ts, n⟩ := c
  match ts with
  | [] => rfl
  | [_] => rfl
  | _ :: _ :: _ => rfl

end Cursor

/-! ## Passing over -/

/-- A block that is passed over does not depend on lines. -/
lemma tokensFromBoundary_renumber (boundaries : List String) (depth : Nat) (ts : List Token) :
    tokensFromBoundary boundaries depth (ts.map (Token.renumber g)) =
      (tokensFromBoundary boundaries depth ts).map (Token.renumber g) := by
  have hword : ∀ (t : Token) words, (t.renumber g).isKeywordIn words = t.isKeywordIn words :=
    fun _ _ => rfl
  induction ts generalizing depth with
  | nil => rfl
  | cons t ts ih =>
    simp only [List.map_cons, tokensFromBoundary, hword, ih]
    split
    · rfl
    · split
      · rfl
      · split <;> rfl

/-- A group that is passed over ends with its line; different lines have to stay different. -/
lemma tokensAfterGroup_renumber (hg : Function.Injective g) (line depth : Nat)
    (ts : List Token) :
    tokensAfterGroup (g line) depth (ts.map (Token.renumber g)) =
      (tokensAfterGroup line depth ts).map (Token.renumber g) := by
  have hsymbol : ∀ (t : Token) symbol, (t.renumber g).isSymbol symbol = t.isSymbol symbol :=
    fun _ _ => rfl
  have hline : ∀ t : Token, ((t.renumber g).line != g line) = (t.line != line) := by
    intro t
    rw [Bool.eq_iff_iff]
    simp only [Token.renumber, bne_iff_ne, ne_eq, hg.eq_iff]
  induction ts generalizing depth with
  | nil => rfl
  | cons t ts ih =>
    simp only [List.map_cons, tokensAfterGroup, hsymbol, hline, ih]
    split
    · rfl
    · split
      · rfl
      · split
        · split <;> rfl
        · rfl

namespace Parser

variable {α β : Type} {p q : Parser α} {f f' : α → Parser β}

/-! ## Primitives -/

/-- The second parser does on renumbered lines what the first one does. -/
def Renumbers (g : Nat → Nat) (p q : Parser α) : Prop :=
  ∀ c, q (c.renumber g) = (p c).renumber g

/-- A result that is there at once has no lines in it. -/
lemma renumbers_pure (a : α) : Renumbers g (pure a : Parser α) (pure a) :=
  fun _ => rfl

/-- Parsers one after the other do on renumbered lines what they do on the lines. -/
lemma Renumbers.bind (hp : Renumbers g p q) (hf : ∀ a, Renumbers g (f a) (f' a)) :
    Renumbers g (p >>= f) (q >>= f') := by
  intro c
  have hsecond := hf (p c).value (p c).rest
  simp only [Bind.bind, hp c, Parsed.renumber, hsecond, List.map_append]

/-- A question that does not ask for lines has the same answer. -/
lemma renumbers_look {a b : Cursor → α} (h : ∀ c, b (c.renumber g) = a c) :
    Renumbers g (look a) (look b) := by
  intro c
  simp only [look, h c, Parsed.renumber, List.map_nil]

/-- The token at the cursor is seen with another line. -/
lemma renumbers_peek_bind {f f' : Token → Parser β}
    (hf : ∀ t, Renumbers g (f t) (f' (t.renumber g))) :
    Renumbers g (peek >>= f) (peek >>= f') := by
  intro c
  change f' (c.renumber g).peek (c.renumber g) = (f c.peek c).renumber g
  rw [Cursor.peek_renumber]
  exact hf c.peek c

/-- The token at the cursor is taken with another line. -/
lemma renumbers_advance_bind {f f' : Token → Parser β}
    (hf : ∀ t, Renumbers g (f t) (f' (t.renumber g))) :
    Renumbers g (advance >>= f) (advance >>= f') := by
  intro c
  change f' (c.renumber g).peek (c.renumber g).advance = (f c.peek c.advance).renumber g
  rw [Cursor.peek_renumber, Cursor.advance_renumber]
  exact hf c.peek c.advance

/-- A report is renumbered with the token at the cursor. -/
lemma renumbers_report (fault : Fault) : Renumbers g (report fault) (report fault) := by
  intro c
  simp only [report, Cursor.peek_renumber, Parsed.renumber, List.map_cons, List.map_nil]
  rfl

/-- A report, and a parser behind it. -/
lemma renumbers_report_bind {q q' : Parser β} (fault : Fault) (hq : Renumbers g q q') :
    Renumbers g (report fault >>= fun _ => q) (report fault >>= fun _ => q') :=
  (renumbers_report fault).bind fun _ => hq

/-- Giving up is a report. -/
lemma renumbers_giveUp (fault : Fault) :
    Renumbers g (giveUp fault : Parser (Option α)) (giveUp fault) :=
  renumbers_report_bind fault (renumbers_pure _)

/-- Whether there is a symbol does not depend on lines. -/
lemma renumbers_atSymbol (symbol : String) : Renumbers g (atSymbol symbol) (atSymbol symbol) :=
  renumbers_look fun c => by rw [Cursor.peek_renumber]; rfl

/-- The kind of a token does not depend on lines. -/
lemma renumbers_atKind (kind : TokenKind) : Renumbers g (atKind kind) (atKind kind) :=
  renumbers_look fun c => by rw [Cursor.peek_renumber]; rfl

/-- Whether a symbol follows does not depend on lines. -/
lemma renumbers_nextIsSymbol (symbol : String) :
    Renumbers g (nextIsSymbol symbol) (nextIsSymbol symbol) :=
  renumbers_look fun c => c.nextIsSymbol_renumber symbol

/-- Taking a symbol does not depend on lines. -/
lemma renumbers_takeSymbol (symbol : String) :
    Renumbers g (takeSymbol symbol) (takeSymbol symbol) := by
  refine (renumbers_atSymbol symbol).bind fun found => ?_
  cases found with
  | true => exact renumbers_advance_bind fun _ => renumbers_pure _
  | false => exact renumbers_pure _

/-- Taking a reserved word does not depend on lines. -/
lemma renumbers_takeKeyword (word : String) :
    Renumbers g (takeKeyword word) (takeKeyword word) := by
  have hword : Renumbers g (atKeyword word) (atKeyword word) :=
    renumbers_look fun c => by rw [Cursor.peek_renumber]; rfl
  refine hword.bind fun found => ?_
  cases found with
  | true => exact renumbers_advance_bind fun _ => renumbers_pure _
  | false => exact renumbers_pure _

/-- The question whether a list in parentheses is over. -/
lemma renumbers_atListEnd :
    Renumbers g (look fun c => c.atEnd || c.peek.isSymbol ")")
      (look fun c => c.atEnd || c.peek.isSymbol ")") :=
  renumbers_look fun c => by rw [Cursor.peek_renumber, Cursor.atEnd_renumber]; rfl

/-- Passing over a block does not depend on lines. -/
lemma renumbers_skipBlock (boundaries : List String) :
    Renumbers g (skipBlock boundaries) (skipBlock boundaries) := by
  intro c
  simp only [skipBlock, move, Cursor.renumber, tokensFromBoundary_renumber, Parsed.renumber,
    List.map_nil]

/-- Passing over a group depends on lines only as far as they are told apart. -/
lemma renumbers_skipParenthesized (hg : Function.Injective g) :
    Renumbers g skipParenthesized skipParenthesized := by
  intro c
  simp only [skipParenthesized, move, Cursor.peek_renumber, Token.renumber, Parsed.renumber,
    List.map_nil]
  simp only [Cursor.renumber, ← tokensAfterGroup_renumber hg]

/-- A loop has as much fuel on renumbered lines as on the lines. -/
lemma renumbers_fuelled {loop loop' : Nat → Parser α}
    (h : ∀ fuel, Renumbers g (loop fuel) (loop' fuel)) :
    Renumbers g (fuelled loop) (fuelled loop') := by
  intro c
  have hlength : (c.renumber g).tokens.length = c.tokens.length := List.length_map _
  rw [fuelled, hlength]
  exact h _ c

/-- A repetition does not depend on lines if its item and its end do not. -/
lemma renumbers_manyUntil {stop : Cursor → Bool} {item : Parser (Option α)}
    (hstop : ∀ c, stop (c.renumber g) = stop c) (hitem : Renumbers g item item) :
    Renumbers g (manyUntil stop item) (manyUntil stop item) := by
  refine renumbers_fuelled fun fuel => ?_
  induction fuel with
  | zero => exact renumbers_pure _
  | succ fuel ih =>
    refine Renumbers.bind (renumbers_look fun c => ?_) fun stops => ?_
    · rw [Cursor.atEnd_renumber, hstop]
    · cases stops with
      | true => exact renumbers_pure _
      | false => exact hitem.bind fun _ => ih.bind fun _ => renumbers_pure _

/-! ## Expressions -/

/-- A list goes on behind its commas, whatever the lines are. -/
lemma renumbers_goOnStrictly {loop : Parser (List α)} (hloop : Renumbers g loop loop)
    (fault : Fault) (found : Option α) :
    Renumbers g (goOnStrictly fault found loop) (goOnStrictly fault found loop) := by
  refine (renumbers_takeSymbol _).bind fun comma => ?_
  cases comma with
  | true => exact hloop.bind fun _ => renumbers_pure _
  | false =>
    refine (renumbers_atSymbol _).bind fun closing => ?_
    cases closing with
    | true => exact renumbers_pure _
    | false => exact renumbers_report_bind _ (renumbers_pure _)

/-- Arguments in parentheses may stand on any lines. -/
lemma renumbers_callArguments {item : Parser (Option Expr)} (hitem : Renumbers g item item)
    (name : String) : Renumbers g (callArguments item name) (callArguments item name) := by
  have hloop : ∀ fuel, Renumbers g (argumentsWithin item fuel) (argumentsWithin item fuel) := by
    intro fuel
    induction fuel with
    | zero => exact renumbers_pure _
    | succ fuel ih =>
      refine renumbers_atListEnd.bind fun stops => ?_
      cases stops with
      | true => exact renumbers_pure _
      | false => exact hitem.bind fun found => renumbers_goOnStrictly ih .argumentSeparator found
  refine (renumbers_takeSymbol _).bind fun _ => (renumbers_fuelled hloop).bind fun args =>
    (renumbers_takeSymbol _).bind fun closing => ?_
  cases closing with
  | true => exact renumbers_pure _
  | false => exact renumbers_report_bind _ (renumbers_pure _)

/-- An expression does not depend on lines if its calls do not. -/
lemma renumbers_expressionWith {call : String → Parser (Option Expr)}
    (hcall : ∀ name, Renumbers g (call name) (call name)) :
    Renumbers g (expressionWith call) (expressionWith call) := by
  refine renumbers_peek_bind fun token => ?_
  obtain ⟨kind, text, line⟩ := token
  simp only [Token.renumber]
  split
  · refine (renumbers_nextIsSymbol _).bind fun isCall => renumbers_advance_bind fun _ => ?_
    cases isCall with
    | true => exact hcall _
    | false => exact renumbers_pure _
  · exact renumbers_advance_bind fun _ => renumbers_pure _
  · exact renumbers_advance_bind fun _ => renumbers_pure _
  · exact renumbers_advance_bind fun _ => renumbers_pure _
  · exact renumbers_report_bind _ (renumbers_pure _)

/-- Expressions are the same on renumbered lines. -/
lemma renumbers_expression (hg : Function.Injective g) (room : Nat) :
    Renumbers g (expression room) (expression room) := by
  induction room with
  | zero =>
    exact renumbers_expressionWith fun _ => renumbers_report_bind _
      ((renumbers_skipParenthesized hg).bind fun _ => renumbers_pure _)
  | succ room ih => exact renumbers_expressionWith fun name => renumbers_callArguments ih name

/-- A condition does not depend on lines if its sides do not. -/
lemma renumbers_condition {operand : Parser (Option Expr)}
    (hoperand : Renumbers g operand operand) :
    Renumbers g (condition operand) (condition operand) := by
  refine hoperand.bind fun left => ?_
  cases left with
  | none => exact renumbers_report_bind _ (renumbers_pure _)
  | some left =>
    refine (renumbers_takeSymbol _).bind fun equals => ?_
    cases equals with
    | false => exact renumbers_report_bind _ (renumbers_pure _)
    | true =>
      refine hoperand.bind fun right => ?_
      cases right with
      | none => exact renumbers_report_bind _ (renumbers_pure _)
      | some right => exact renumbers_pure _

/-! ## Statements -/

section Statements

variable {expr : Parser (Option Expr)} {block : List String → Parser (List Stmt)}

/-- A run of names does not depend on lines. -/
lemma renumbers_nameListWithin (fuel : Nat) :
    Renumbers g (nameListWithin fuel) (nameListWithin fuel) := by
  induction fuel with
  | zero => exact renumbers_pure _
  | succ fuel ih =>
    refine (renumbers_atKind _).bind fun isName => ?_
    cases isName with
    | true => exact renumbers_advance_bind fun _ => ih.bind fun _ => renumbers_pure _
    | false =>
      refine (renumbers_takeSymbol _).bind fun comma => ?_
      cases comma with
      | true => exact ih
      | false => exact renumbers_pure _

/-- The arguments of a call statement do not depend on lines if expressions do not. -/
lemma renumbers_statementArgumentsWithin (hexpr : Renumbers g expr expr) (fuel : Nat) :
    Renumbers g (statementArgumentsWithin expr fuel) (statementArgumentsWithin expr fuel) := by
  induction fuel with
  | zero => exact renumbers_pure _
  | succ fuel ih =>
    refine renumbers_atListEnd.bind fun stops => ?_
    cases stops with
    | true => exact renumbers_pure _
    | false =>
      refine hexpr.bind fun arg => ?_
      cases arg with
      | none => exact renumbers_pure _
      | some arg =>
        refine (renumbers_takeSymbol _).bind fun comma => ?_
        cases comma with
        | true => exact ih.bind fun _ => renumbers_pure _
        | false => exact renumbers_pure _

/-- Parameters do not depend on lines. -/
lemma renumbers_parametersWithin (fuel : Nat) :
    Renumbers g (parametersWithin fuel) (parametersWithin fuel) := by
  have hparameter : Renumbers g parameter parameter := by
    refine (renumbers_atKind _).bind fun isName => ?_
    cases isName with
    | true => exact renumbers_advance_bind fun _ => renumbers_pure _
    | false => exact renumbers_giveUp _
  induction fuel with
  | zero => exact renumbers_pure _
  | succ fuel ih =>
    refine renumbers_atListEnd.bind fun stops => ?_
    cases stops with
    | true => exact renumbers_pure _
    | false =>
      exact hparameter.bind fun found => renumbers_goOnStrictly ih .parameterSeparator found

/-- A list of parameters in its parentheses does not depend on lines. -/
lemma renumbers_parameterList : Renumbers g parameterList parameterList := by
  refine (renumbers_takeSymbol _).bind fun opening => ?_
  cases opening with
  | false => exact renumbers_pure _
  | true =>
    refine (renumbers_fuelled renumbers_parametersWithin).bind fun params =>
      (renumbers_takeSymbol _).bind fun closing => ?_
    cases closing with
    | true => exact renumbers_pure _
    | false => exact renumbers_report_bind _ (renumbers_pure _)

/-- A word that is required at the end of a statement. -/
lemma renumbers_closedBy (word : String) (fault : Fault) (s : Stmt) :
    Renumbers g
      (takeKeyword word >>= fun closed => if closed = true then pure (some s) else giveUp fault)
      (takeKeyword word >>= fun closed =>
        if closed = true then pure (some s) else giveUp fault) := by
  refine (renumbers_takeKeyword word).bind fun closed => ?_
  cases closed with
  | true => exact renumbers_pure _
  | false => exact renumbers_giveUp _

/-- A case does not depend on lines if expressions and blocks do not. -/
lemma renumbers_switchItem (hexpr : Renumbers g expr expr)
    (hblock : ∀ words, Renumbers g (block words) (block words)) :
    Renumbers g (switchItem expr block) (switchItem expr block) := by
  refine (renumbers_takeKeyword _).bind fun isCase => ?_
  cases isCase with
  | false =>
    exact renumbers_report_bind _ (renumbers_advance_bind fun _ => renumbers_pure _)
  | true =>
    refine hexpr.bind fun value => ?_
    cases value with
    | none => exact renumbers_giveUp _
    | some value => exact (hblock _).bind fun _ => renumbers_pure _

/-- The block behind `else` does not depend on lines if blocks do not. -/
lemma renumbers_elseBlock (hblock : ∀ words, Renumbers g (block words) (block words)) :
    Renumbers g (elseBlock block) (elseBlock block) := by
  refine (renumbers_takeKeyword _).bind fun isElse => ?_
  cases isElse with
  | true => exact hblock _
  | false => exact renumbers_pure _

/-- Lines that were different stay different, so a `return` sees whether its value follows. -/
lemma renumbers_returnStatement (hg : Function.Injective g) (hexpr : Renumbers g expr expr) :
    Renumbers g (returnStatement expr) (returnStatement expr) := by
  refine renumbers_advance_bind fun word => ?_
  have hsame : ∀ c : Cursor, (!(c.renumber g).atEnd && (c.renumber g).peek.line ==
      (word.renumber g).line) = (!c.atEnd && c.peek.line == word.line) := by
    intro c
    have hline : (g c.peek.line == g word.line) = (c.peek.line == word.line) := by
      rw [Bool.eq_iff_iff, beq_iff_eq, beq_iff_eq, hg.eq_iff]
    rw [Cursor.atEnd_renumber, Cursor.peek_renumber, ← hline]
    rfl
  refine Renumbers.bind (renumbers_look hsame) fun hasValue => ?_
  cases hasValue with
  | true => exact hexpr.bind fun _ => renumbers_pure _
  | false => exact renumbers_pure _

/-- A statement with a reserved word does not depend on lines, but for the value of a `return`,
which has to stand on the line of the word. -/
lemma renumbers_keywordStatement (hg : Function.Injective g) (hexpr : Renumbers g expr expr)
    (hblock : ∀ words, Renumbers g (block words) (block words)) (word : String) :
    Renumbers g (keywordStatement expr block word) (keywordStatement expr block word) := by
  unfold keywordStatement
  split
  · refine renumbers_advance_bind fun _ => (renumbers_atKind _).bind fun isName => ?_
    cases isName with
    | false => exact renumbers_giveUp _
    | true =>
      exact renumbers_advance_bind fun _ => renumbers_parameterList.bind fun _ =>
        (hblock _).bind fun _ => renumbers_closedBy _ _ _
  split
  · refine renumbers_advance_bind fun _ =>
      (renumbers_fuelled renumbers_nameListWithin).bind fun names => ?_
    split
    · exact renumbers_giveUp _
    · exact renumbers_pure _
  split
  · exact renumbers_advance_bind fun _ =>
      (renumbers_fuelled renumbers_nameListWithin).bind fun _ => renumbers_pure _
  split
  · exact renumbers_advance_bind fun _ => renumbers_pure _
  split
  · exact renumbers_advance_bind fun _ => (renumbers_condition hexpr).bind fun _ =>
      (hblock _).bind fun _ => (renumbers_elseBlock hblock).bind fun _ => renumbers_closedBy _ _ _
  split
  · refine renumbers_advance_bind fun _ => hexpr.bind fun selector => ?_
    cases selector with
    | none => exact renumbers_giveUp _
    | some selector =>
      refine Renumbers.bind (renumbers_manyUntil (fun c => ?_) (renumbers_switchItem hexpr hblock))
        fun _ => renumbers_closedBy _ _ _
      rw [Cursor.peek_renumber]
      rfl
  split
  · exact renumbers_advance_bind fun _ => (renumbers_condition hexpr).bind fun _ =>
      (hblock _).bind fun _ => renumbers_closedBy _ _ _
  split
  · exact renumbers_returnStatement hg hexpr
  · exact renumbers_report_bind _ (renumbers_advance_bind fun _ => renumbers_pure _)

/-- One level of statements. -/
lemma renumbers_statementWith (hg : Function.Injective g) (hexpr : Renumbers g expr expr)
    (hblock : ∀ words, Renumbers g (block words) (block words)) :
    Renumbers g (statementWith expr block) (statementWith expr block) := by
  refine renumbers_peek_bind fun token => ?_
  obtain ⟨kind, text, line⟩ := token
  simp only [Token.renumber]
  split
  · exact renumbers_keywordStatement hg hexpr hblock _
  · refine (renumbers_nextIsSymbol _).bind fun isAssignment => ?_
    cases isAssignment with
    | true =>
      refine renumbers_advance_bind fun _ => renumbers_advance_bind fun _ =>
        hexpr.bind fun value => ?_
      cases value with
      | none => exact renumbers_giveUp _
      | some value => exact renumbers_pure _
    | false =>
      refine renumbers_advance_bind fun _ => (renumbers_takeSymbol _).bind fun opening => ?_
      cases opening with
      | false => exact renumbers_giveUp _
      | true =>
        refine (renumbers_fuelled (renumbers_statementArgumentsWithin hexpr)).bind fun args =>
          (renumbers_takeSymbol _).bind fun closing => ?_
        cases closing with
        | true => exact renumbers_pure _
        | false => exact renumbers_giveUp _
  · exact renumbers_advance_bind fun _ => renumbers_pure _
  · exact renumbers_report_bind _ (renumbers_advance_bind fun _ => renumbers_pure _)

end Statements

/-- Statements are the same on renumbered lines. -/
lemma renumbers_statement (hg : Function.Injective g) (room : Nat) :
    Renumbers g (statement room) (statement room) := by
  induction room with
  | zero =>
    exact renumbers_statementWith hg (renumbers_expression hg 0) fun words =>
      renumbers_report_bind _ ((renumbers_skipBlock words).bind fun _ => renumbers_pure _)
  | succ room ih =>
    refine renumbers_statementWith hg (renumbers_expression hg (room + 1)) fun words =>
      renumbers_manyUntil (fun c => ?_) ih
    rw [Cursor.peek_renumber]
    rfl

/-- **Programs are the same on renumbered lines**: only the lines of the reports change. -/
lemma renumbers_program (hg : Function.Injective g) : Renumbers g program program :=
  renumbers_manyUntil (fun _ => rfl) (renumbers_statement hg nestingLimit)

end Parser

end DialogueScript
