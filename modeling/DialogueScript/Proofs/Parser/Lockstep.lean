import DialogueScript.Proofs.Parser.Refinement

set_option autoImplicit false

/-!
# The machine and the parser in step

Each function of the parsing machine follows the function of the parser on cursors with the same
name. At any depth the parser has the room that the depth leaves below the limit. So what a machine
that starts at the first token finds in a token list is what the parser finds there.

## Main results

* `DialogueScript.Machine.implements_expression`, `DialogueScript.Machine.implements_condition` —
  expressions and conditions.
* `DialogueScript.Machine.begins_statement`, `DialogueScript.Machine.implements_block` — statements
  and blocks.
* `DialogueScript.Machine.implements_program` — programs.
-/

namespace DialogueScript

namespace Machine

variable {tokens : List Token} {α : Type} {m : Machine} {depth : Nat}

/-! ## Expressions -/

section Expressions

variable {expr : Parser (Option Expr)}

/-- The machine takes arguments as the parser does, if it takes expressions so. -/
lemma implements_argumentLoop (hexpr : Implements tokens depth (expression tokens) expr) :
    Implements tokens depth (argumentLoop tokens)
      (Parser.fuelled (Parser.argumentsWithin expr)) :=
  implements_list (fun _ => by rw [Machine.argumentLoop]) rfl (fun _ => rfl) hexpr

/-- The machine takes arguments in parentheses as the parser does. -/
lemma implements_callArguments (hexpr : Implements tokens depth (expression tokens) expr)
    (name : String) :
    Implements tokens depth (callArguments tokens name) (Parser.callArguments expr name) := by
  refine .of_succ ?_
  simp only [Machine.callArguments]
  refine (implements_takeSymbol "(").bind fun _ => (implements_argumentLoop hexpr).bind fun args =>
    (implements_takeSymbol ")").bind fun closing => ?_
  cases closing with
  | true => exact implements_pure _
  | false => exact (implements_report _).bind fun _ => implements_pure _

/-- A call beyond the limit is reported and passed over. -/
lemma implements_callTooDeep :
    Implements tokens depth
      (fun fuel => report tokens .nestingTooDeep >>= fun _ => peek tokens >>= fun opening =>
        skipGroup tokens opening.line 0 fuel >>= fun _ => pure none) Parser.callTooDeep := by
  refine (implements_report _).bind fun _ m hinside _ => follows_ask (peek_apply tokens m) ?_
  have hskip : Follows tokens (skipGroup tokens (m.seen tokens).line 0)
      Parser.skipParenthesized m := by
    refine .congr ?_ (follows_skipGroup (m.seen tokens).line 0 hinside)
    rw [line_seen hinside]
    rfl
  exact hskip.bind fun _ _ => follows_pure none

/-- Before the end, `nextIsSymbol` is answered as well. -/
lemma follows_nextIsSymbol_bind {symbol : String} {f : Nat → Bool → MachineM α}
    {g : Bool → Parser α} (hlt : m.position < stop tokens)
    (hf : ∀ found, Follows tokens (fun fuel => f fuel found) (g found) m) :
    Follows tokens (fun fuel => nextIsSymbol tokens symbol >>= f fuel)
      (Parser.nextIsSymbol symbol >>= g) m :=
  follows_bind_of (gives_of_eq (nextIsSymbol_of_lt symbol hlt)) (.refl tokens m) (hf _)

/-- The machine looks at its token, and the parser at the first of the tokens ahead. -/
lemma follows_peek_bind {f : Nat → Token → MachineM α} {g : Token → Parser α}
    (hf : Follows tokens (fun fuel => f fuel (m.seen tokens)) (g (m.cursor tokens).peek) m) :
    Follows tokens (fun fuel => peek tokens >>= f fuel) (Parser.peek >>= g) m :=
  follows_ask (peek_apply tokens m) hf

/-- An expression, given how a call behind its name is parsed. -/
lemma implements_expressionWith {call : String → Parser (Option Expr)}
    (hcall : Begins tokens depth (callExpression tokens)
      (Parser.advance >>= fun name => call name.text)) :
    Implements tokens depth (expression tokens) (Parser.expressionWith call) := by
  intro m hinside hdepth
  have hgiveUp : Follows tokens
      (fun _ => reportAt (m.seen tokens).line .unsupportedExpression >>= fun _ => pure none)
      (Parser.report .unsupportedExpression >>= fun _ => pure (none : Option Expr)) m :=
    (follows_reportAt (line_seen hinside) _).bind fun _ _ => follows_pure none
  refine .of_succ ?_
  simp only [Machine.expression]
  refine follows_peek_bind ?_
  rcases Nat.lt_or_eq_of_le hinside with hlt | heq
  · rw [(token_at_of_lt hlt).1]
    cases hkind : (m.seen tokens).kind with
    | identifier =>
      refine follows_nextIsSymbol_bind hlt fun isCall => ?_
      cases isCall with
      | true =>
        refine .congr ?_ (hcall m hlt hdepth)
        rw [← (token_at_of_lt hlt).1]
        rfl
      | false => exact Implements.advance_bind (implements_pure _) m hinside hdepth
    | string => exact Implements.advance_bind (implements_pure _) m hinside hdepth
    | number => exact Implements.advance_bind (implements_pure _) m hinside hdepth
    | boolean => exact Implements.advance_bind (implements_pure _) m hinside hdepth
    | keyword => exact hgiveUp
    | symbol => exact hgiveUp
    | newline => exact hgiveUp
    | eof => exact hgiveUp
  · rw [(token_at_of_eq heq).1, (cursor_of_eq heq).2.1]
    exact hgiveUp

/-- How a call is parsed behind its name, with some room. -/
def callWithin : (room : Nat) → String → Parser (Option Expr)
  | 0 => fun _ => Parser.callTooDeep
  | room + 1 => Parser.callArguments (Parser.expression room)

/-- An expression is parsed with calls for which there is one place less. -/
lemma expression_eq (room : Nat) :
    Parser.expression room = Parser.expressionWith (callWithin room) := by
  cases room <;> rfl

/-- A call, given how the expressions in it are parsed. -/
lemma taking_callExpression_of
    (hexpression : depth < Parser.nestingLimit →
      Implements tokens (depth + 1) (expression tokens)
        (Parser.expression (Parser.nestingLimit - (depth + 1)))) :
    Taking tokens depth (fun fuel => callExpression tokens (fuel + 1))
      (Parser.advance >>= fun name => callWithin (Parser.nestingLimit - depth) name.text) := by
  simp only [Machine.callExpression]
  refine ⟨_, _, fun _ => rfl, rfl, fun name =>
    implements_limited (fun hlimit => ?_) fun hlimit => ?_⟩
  · rw [Nat.sub_eq_zero_of_le hlimit]
    exact implements_callTooDeep
  · obtain ⟨room, hroom⟩ : ∃ room, Parser.nestingLimit - depth = room + 1 :=
      ⟨Parser.nestingLimit - (depth + 1), by omega⟩
    have hinner := hexpression hlimit
    rw [show Parser.nestingLimit - (depth + 1) = room by omega] at hinner
    rw [hroom]
    exact implements_callArguments hinner name.text

/-- **An expression** is parsed with the room that the depth of the machine leaves.

**Proof sketch.** Induction on the room. The arguments of a call lie one deeper, so that they have
less room, and a call beyond the limit is passed over. -/
lemma implements_expression (tokens : List Token) (depth : Nat) :
    Implements tokens depth (expression tokens)
      (Parser.expression (Parser.nestingLimit - depth)) := by
  have hlevel : ∀ depth, (depth < Parser.nestingLimit → Implements tokens (depth + 1)
      (expression tokens) (Parser.expression (Parser.nestingLimit - (depth + 1)))) →
      Implements tokens depth (expression tokens)
        (Parser.expression (Parser.nestingLimit - depth)) := by
    intro depth hinner
    rw [expression_eq]
    exact implements_expressionWith (taking_callExpression_of hinner).begins.of_succ
  obtain ⟨room, hroom⟩ : ∃ room, Parser.nestingLimit - depth = room := ⟨_, rfl⟩
  induction room generalizing depth with
  | zero => exact hlevel depth fun hlimit => by omega
  | succ room ih => exact hlevel depth fun _ => ih (depth + 1) (by omega)

/-- The machine takes a condition as the parser does. -/
lemma implements_condition (hexpr : Implements tokens depth (expression tokens) expr) :
    Implements tokens depth (condition tokens) (Parser.condition expr) := by
  refine hexpr.bind fun left => ?_
  cases left with
  | none => exact (implements_report _).bind fun _ => implements_pure _
  | some left =>
    refine (implements_takeSymbol "=").bind fun equals => ?_
    cases equals with
    | false => exact (implements_report _).bind fun _ => implements_pure _
    | true =>
      refine hexpr.bind fun right => ?_
      cases right with
      | none => exact (implements_report _).bind fun _ => implements_pure _
      | some right => exact implements_pure _

end Expressions

/-! ## Simple statements -/

section Statements

variable {expr : Parser (Option Expr)} {body : List String → Parser (List Stmt)}

/-- At a name with an equals sign behind it, the machine takes an assignment as the parser does. -/
lemma taking_assignment (hexpr : Implements tokens depth (expression tokens) expr) :
    Taking tokens depth (assignment tokens) (Parser.assignment expr) := by
  refine ⟨_, _, fun _ => rfl, rfl, fun name => Implements.advance_bind (hexpr.bind fun value => ?_)⟩
  cases value with
  | none => exact implements_giveUp _
  | some value => exact implements_pure _

/-- The arguments of a call statement. Each round that goes on has taken a comma. -/
lemma implements_statementArgumentLoop (hexpr : Implements tokens depth (expression tokens) expr) :
    Implements tokens depth (statementArgumentLoop tokens)
      (Parser.fuelled (Parser.statementArgumentsWithin expr)) := by
  refine implements_fuelled fun fuel => ?_
  induction fuel with
  | zero =>
    intro m hinside hdepth hfuel
    refine .of_succ ?_
    simp only [Machine.statementArgumentLoop]
    exact answers_atListEnd.follows_at_end (by omega) (follows_pure [])
  | succ fuel ih =>
    intro m hinside hdepth hfuel
    refine .of_succ ?_
    simp only [Machine.statementArgumentLoop]
    refine answers_atListEnd.follows_bind hinside ?_
    cases (m.cursor tokens).atEnd || (m.cursor tokens).peek.isSymbol ")" with
    | true => exact follows_pure []
    | false =>
      refine (hexpr m hinside hdepth).bind fun mid hmid => ?_
      obtain ⟨hle, hmidInside⟩ := hmid.moves.position_le hinside
      have hmidDepth := hmid.depth.trans hdepth
      cases (expr (m.cursor tokens)).value with
      | none => exact follows_pure _
      | some arg =>
        refine follows_takeSymbol_bind hmidInside (fun hlt => ?_) (follows_pure _)
        refine (ih { mid with position := mid.position + 1 } hlt hmidDepth ?_).bind
          fun _ _ => follows_pure _
        change stop tokens ≤ mid.position + 1 + fuel
        omega

/-- At a name, the machine takes a call statement as the parser does. -/
lemma taking_callStatement (hexpr : Implements tokens depth (expression tokens) expr) :
    Taking tokens depth (callStatement tokens) (Parser.callStatement expr) := by
  refine ⟨_, _, fun _ => rfl, rfl, fun name => (implements_takeSymbol "(").bind fun opening => ?_⟩
  cases opening with
  | false => exact implements_giveUp _
  | true =>
    refine (implements_statementArgumentLoop hexpr).bind fun args =>
      (implements_takeSymbol ")").bind fun closing => ?_
    cases closing with
    | true => exact implements_pure _
    | false => exact implements_giveUp _

/-- Where the machine looks at a name it is before the end, and the name is taken. -/
lemma follows_atIdentifier_bind {f : Nat → Token → MachineM α} {g : Token → Parser α}
    {other : Nat → MachineM α} {other' : Parser α} (hinside : m.position ≤ stop tokens)
    (hname : m.position < stop tokens →
      Follows tokens (fun fuel => advance tokens >>= f fuel) (Parser.advance >>= g) m)
    (hother : Follows tokens other other' m) :
    Follows tokens
      (fun fuel => atKind tokens .identifier >>= fun isName =>
        if isName = true then advance tokens >>= f fuel else other fuel)
      (Parser.atKind .identifier >>= fun isName =>
        if isName = true then Parser.advance >>= g else other') m := by
  refine (answers_atKind (by decide)).follows_bind hinside ?_
  cases hkind : (m.cursor tokens).peek.kind == .identifier with
  | true =>
    refine hname (Nat.lt_of_le_of_ne hinside fun heq => ?_)
    rw [(token_at_of_eq heq).1] at hkind
    exact Bool.false_ne_true hkind
  | false => exact hother

/-- A run of names and commas. Both are tokens, so that each round that goes on is one token
further. -/
lemma implements_nameLoop :
    Implements tokens depth (nameLoop tokens) (Parser.fuelled Parser.nameListWithin) := by
  have hround : ∀ (fuel : Nat) (m : Machine), m.position ≤ stop tokens →
      (m.position < stop tokens → Follows tokens (nameLoop tokens) (Parser.nameListWithin fuel)
        { m with position := m.position + 1 }) →
      Follows tokens (nameLoop tokens) (Parser.nameListWithin (fuel + 1)) m := by
    intro fuel m hinside hlater
    refine .of_succ ?_
    simp only [Machine.nameLoop]
    refine follows_atIdentifier_bind hinside (fun hlt => ?_) ?_
    · refine follows_bind_of (gives_of_eq (advance_of_lt hlt)) (agrees_advance hlt) ?_
      rw [show (Parser.advance (m.cursor tokens)).value = m.seen tokens from (token_at_of_lt hlt).1]
      exact (hlater hlt).bind fun _ _ => follows_pure _
    · exact follows_takeSymbol_bind hinside hlater (follows_pure [])
  refine implements_fuelled fun fuel => ?_
  induction fuel with
  | zero =>
    intro m hinside hdepth hfuel
    -- With nothing ahead a round more changes nothing.
    have hnil := (cursor_of_eq (Nat.le_antisymm hinside hfuel)).1
    refine .congr ?_ (hround 0 m hinside fun hlt => by omega)
    generalize m.cursor tokens = c at hnil
    obtain ⟨ts, n⟩ := c
    cases hnil
    rfl
  | succ fuel ih =>
    intro m hinside hdepth hfuel
    refine hround fuel m hinside fun hlt => ih _ hlt hdepth ?_
    change stop tokens ≤ m.position + 1 + fuel
    omega

/-- The machine takes a declaration of global variables as the parser does. -/
lemma implements_globalDeclaration :
    Implements tokens depth (globalDeclaration tokens) Parser.globalDeclaration := by
  refine Implements.advance_bind (implements_nameLoop.bind fun names => ?_)
  cases names with
  | nil => exact implements_giveUp _
  | cons name names => exact implements_pure _

/-- The machine takes a declaration of local variables as the parser does. -/
lemma implements_localDeclaration :
    Implements tokens depth (localDeclaration tokens) Parser.localDeclaration :=
  Implements.advance_bind (implements_nameLoop.bind fun _ => implements_pure _)

/-- At its reserved word, the machine takes a `return` as the parser does. -/
lemma taking_returnStatement (hexpr : Implements tokens depth (expression tokens) expr) :
    Taking tokens depth (returnStatement tokens) (Parser.returnStatement expr) := by
  refine ⟨_, _, fun _ => rfl, rfl, fun word =>
    (answers_atLine word.line).implements.bind fun here => ?_⟩
  cases here with
  | true => exact hexpr.bind fun _ => implements_pure _
  | false => exact implements_pure _

/-- The machine takes one parameter as the parser does. -/
lemma implements_parameter :
    Implements tokens depth (fun _ => parameter tokens) Parser.parameter := by
  intro m hinside hdepth
  exact follows_atIdentifier_bind hinside
    (fun hlt => Begins.advance_bind (fun _ => implements_pure _) m hlt hdepth)
    (implements_giveUp _ m hinside hdepth)

/-- The machine takes parameters as the parser does. -/
lemma implements_parameterLoop :
    Implements tokens depth (parameterLoop tokens) (Parser.fuelled Parser.parametersWithin) :=
  implements_list (fun _ => by rw [Machine.parameterLoop]) rfl (fun _ => rfl)
    implements_parameter

/-- The machine takes parameters in parentheses as the parser does. -/
lemma implements_parameterList :
    Implements tokens depth (parameterList tokens) Parser.parameterList := by
  refine (implements_takeSymbol "(").bind fun opening => ?_
  cases opening with
  | false => exact implements_pure _
  | true =>
    refine implements_parameterLoop.bind fun params =>
      (implements_takeSymbol ")").bind fun closing => ?_
    cases closing with
    | true => exact implements_pure _
    | false => exact (implements_report _).bind fun _ => implements_pure _

/-! ## Statements with blocks -/

/-- A word that is required at the end of a statement, or else the statement is given up. -/
lemma implements_closedBy (word : String) (fault : Fault) (s : Stmt) :
    Implements tokens depth
      (fun _ => takeKeyword tokens word >>= fun closed =>
        if closed = true then pure (some s) else giveUp tokens fault)
      (Parser.takeKeyword word >>= fun closed =>
        if closed = true then pure (some s) else Parser.giveUp fault) := by
  refine (implements_takeKeyword word).bind fun closed => ?_
  cases closed with
  | true => exact implements_pure _
  | false => exact implements_giveUp _

/-- The machine takes a declaration of a function as the parser does, if it takes blocks so. -/
lemma implements_functionDeclaration
    (hblock : ∀ words, Implements tokens depth (block tokens words) (body words)) :
    Implements tokens depth (functionDeclaration tokens) (Parser.functionDeclaration body) := by
  refine .of_succ ?_
  simp only [Machine.functionDeclaration]
  refine Implements.advance_bind fun m hinside hdepth => ?_
  refine follows_atIdentifier_bind hinside (fun hlt => ?_) (implements_giveUp _ m hinside hdepth)
  exact Begins.advance_bind (fun name => implements_parameterList.bind fun params =>
    (hblock _).bind fun _ => implements_closedBy _ _ _) m hlt hdepth

/-- The machine takes the block behind `else` as the parser does. -/
lemma implements_elseBlock
    (hblock : ∀ words, Implements tokens depth (block tokens words) (body words)) :
    Implements tokens depth (elseBlock tokens) (Parser.elseBlock body) := by
  refine .of_succ ?_
  simp only [Machine.elseBlock]
  refine (implements_takeKeyword "else").bind fun isElse => ?_
  cases isElse with
  | true => exact hblock _
  | false => exact implements_pure _

/-- The machine takes a branch as the parser does. -/
lemma implements_branchStatement (hexpr : Implements tokens depth (expression tokens) expr)
    (hblock : ∀ words, Implements tokens depth (block tokens words) (body words)) :
    Implements tokens depth (branchStatement tokens) (Parser.branchStatement expr body) := by
  refine .of_succ ?_
  simp only [Machine.branchStatement]
  exact Implements.advance_bind ((implements_condition hexpr).bind fun _ =>
    (hblock _).bind fun _ => (implements_elseBlock hblock).bind fun _ => implements_closedBy _ _ _)

/-- The machine takes a loop as the parser does. -/
lemma implements_loopStatement (hexpr : Implements tokens depth (expression tokens) expr)
    (hblock : ∀ words, Implements tokens depth (block tokens words) (body words)) :
    Implements tokens depth (loopStatement tokens) (Parser.loopStatement expr body) := by
  refine .of_succ ?_
  simp only [Machine.loopStatement]
  exact Implements.advance_bind ((implements_condition hexpr).bind fun _ =>
    (hblock _).bind fun _ => implements_closedBy _ _ _)

/-- The machine takes a case, or a token that is none, as the parser does. -/
lemma implements_switchItem (hexpr : Implements tokens depth (expression tokens) expr)
    (hblock : ∀ words, Implements tokens depth (block tokens words) (body words)) :
    Implements tokens depth (switchItem tokens) (Parser.switchItem expr body) := by
  refine .of_succ ?_
  simp only [Machine.switchItem]
  refine (implements_takeKeyword "case").bind fun isCase => ?_
  cases isCase with
  | false => exact (implements_report _).bind fun _ => Implements.advance_bind (implements_pure _)
  | true =>
    refine hexpr.bind fun value => ?_
    cases value with
    | none => exact implements_giveUp _
    | some value => exact (hblock _).bind fun _ => implements_pure _

/-- The machine takes cases as the parser does. Each round takes a token, so that the parser has
fuel enough for them. -/
lemma implements_caseLoop (hexpr : Implements tokens depth (expression tokens) expr)
    (hblock : ∀ words, Implements tokens depth (block tokens words) (body words))
    (hitem : Parser.Stepping (Parser.switchItem expr body)) :
    Implements tokens depth (caseLoop tokens)
      (Parser.manyUntil (fun c => c.peek.isKeyword "endswitch") (Parser.switchItem expr body)) := by
  refine implements_manyUntil ?_ (answers_atEnd.or (answers_atKeyword "endswitch"))
    (implements_switchItem hexpr hblock).begins hitem
  intro fuel
  rw [Machine.caseLoop]
  simp only [bind_assoc, pure_bind]

/-- The machine takes a choice between cases as the parser does. -/
lemma implements_switchStatement (hexpr : Implements tokens depth (expression tokens) expr)
    (hblock : ∀ words, Implements tokens depth (block tokens words) (body words))
    (hitem : Parser.Stepping (Parser.switchItem expr body)) :
    Implements tokens depth (switchStatement tokens) (Parser.switchStatement expr body) := by
  refine .of_succ ?_
  simp only [Machine.switchStatement]
  refine Implements.advance_bind (hexpr.bind fun selector => ?_)
  cases selector with
  | none => exact implements_giveUp _
  | some selector =>
    exact (implements_caseLoop hexpr hblock hitem).bind fun _ => implements_closedBy _ _ _

/-- A report at the token that the machine looks at, which is then passed over. -/
lemma follows_unexpected (hinside : m.position ≤ stop tokens) (fault : Fault) :
    Follows tokens
      (fun _ => reportAt (m.seen tokens).line fault >>= fun _ => advance tokens >>= fun _ =>
        pure none)
      (Parser.report fault >>= fun _ => Parser.advance >>= fun _ => pure (none : Option Stmt)) m :=
  (follows_reportAt (line_seen hinside) fault).andThen hinside fun _ =>
    Implements.advance_bind (implements_pure none)

/-- The machine and the parser make the same choice. -/
lemma follows_ite_both {condition : Prop} [Decidable condition] {here there : Nat → MachineM α}
    {p q : Parser α} (hhere : Follows tokens here p m) (hthere : Follows tokens there q m) :
    Follows tokens (fun fuel => if condition then here fuel else there fuel)
      (if condition then p else q) m := by
  by_cases h : condition
  · simpa only [if_pos h] using hhere
  · simpa only [if_neg h] using hthere

/-- A statement that begins with a reserved word. -/
lemma follows_keywordStatement (hexpr : Implements tokens depth (expression tokens) expr)
    (hblock : ∀ words, Implements tokens depth (block tokens words) (body words))
    (hitem : Parser.Stepping (Parser.switchItem expr body)) (hbefore : m.position < stop tokens)
    (hdepth : m.depth = depth) :
    Follows tokens (keywordStatement tokens (m.seen tokens))
      (Parser.keywordStatement expr body (m.seen tokens).text) m := by
  have hinside := Nat.le_of_lt hbefore
  refine .of_succ ?_
  simp only [Machine.keywordStatement, Parser.keywordStatement]
  refine follows_ite_both (implements_functionDeclaration hblock m hinside hdepth) ?_
  refine follows_ite_both (implements_globalDeclaration m hinside hdepth) ?_
  refine follows_ite_both (implements_localDeclaration m hinside hdepth) ?_
  refine follows_ite_both (Implements.advance_bind (implements_pure _) m hinside hdepth) ?_
  refine follows_ite_both (implements_branchStatement hexpr hblock m hinside hdepth) ?_
  refine follows_ite_both (implements_switchStatement hexpr hblock hitem m hinside hdepth) ?_
  refine follows_ite_both (implements_loopStatement hexpr hblock m hinside hdepth) ?_
  exact follows_ite_both ((taking_returnStatement hexpr).begins m hbefore hdepth)
    (follows_unexpected hinside _)

/-- One level of statements. -/
lemma begins_statementWith (hexpr : Implements tokens depth (expression tokens) expr)
    (hblock : ∀ words, Implements tokens depth (block tokens words) (body words))
    (hitem : Parser.Stepping (Parser.switchItem expr body)) :
    Begins tokens depth (statement tokens) (Parser.statementWith expr body) := by
  intro m hbefore hdepth
  have hinside := Nat.le_of_lt hbefore
  refine .of_succ ?_
  simp only [Machine.statement]
  refine follows_peek_bind ?_
  rw [(token_at_of_lt hbefore).1]
  cases hkind : (m.seen tokens).kind with
  | keyword => exact follows_keywordStatement hexpr hblock hitem hbefore hdepth
  | identifier =>
    refine follows_nextIsSymbol_bind hbefore fun isAssignment => ?_
    cases isAssignment with
    | true => exact (taking_assignment hexpr).begins m hbefore hdepth
    | false => exact (taking_callStatement hexpr).begins m hbefore hdepth
  | newline => exact Implements.advance_bind (implements_pure none) m hinside hdepth
  | string => exact follows_unexpected hinside _
  | number => exact follows_unexpected hinside _
  | boolean => exact follows_unexpected hinside _
  | symbol => exact follows_unexpected hinside _
  | eof => exact follows_unexpected hinside _

/-- A block beyond the limit is reported and passed over. -/
lemma implements_blockTooDeep (boundaries : List String) :
    Implements tokens depth
      (fun fuel => report tokens .nestingTooDeep >>= fun _ =>
        skipBlock tokens boundaries 0 fuel >>= fun _ => pure [])
      (Parser.blockTooDeep boundaries) :=
  (implements_report _).bind fun _ =>
    Implements.bind (fun _ hinside _ => follows_skipBlock boundaries 0 hinside) fun _ =>
      implements_pure _

end Statements

/-- Statements up to one of the boundary words. -/
lemma implements_blockLoop {room : Nat}
    (hstatement : Begins tokens depth (statement tokens) (Parser.statement room))
    (boundaries : List String) :
    Implements tokens depth (blockLoop tokens boundaries)
      (Parser.blockOf (Parser.statement room) boundaries) :=
  implements_manyUntil (fun _ => by rw [Machine.blockLoop]) (answers_atBoundary boundaries)
    hstatement (Parser.stepping_statement room)

/-- A block, given how the statements in it are parsed. -/
lemma implements_block_of
    (hstatement : depth < Parser.nestingLimit →
      Begins tokens (depth + 1) (statement tokens)
        (Parser.statement (Parser.nestingLimit - (depth + 1)))) (boundaries : List String) :
    Implements tokens depth (block tokens boundaries)
      (Parser.block (Parser.nestingLimit - depth) boundaries) := by
  refine .of_succ ?_
  simp only [Machine.block]
  refine implements_limited (fun hlimit => ?_) fun hlimit => ?_
  · rw [Nat.sub_eq_zero_of_le hlimit]
    exact implements_blockTooDeep boundaries
  · obtain ⟨room, hroom⟩ : ∃ room, Parser.nestingLimit - depth = room + 1 :=
      ⟨Parser.nestingLimit - (depth + 1), by omega⟩
    have hinner := hstatement hlimit
    rw [show Parser.nestingLimit - (depth + 1) = room by omega] at hinner
    rw [hroom]
    exact implements_blockLoop hinner boundaries

/-- **A statement** is parsed with the room that the depth of the machine leaves.

**Proof sketch.** Induction on the room. The blocks of a statement lie one deeper, so that the
statements in them have less room, and a block beyond the limit has none. -/
lemma begins_statement (tokens : List Token) (depth : Nat) :
    Begins tokens depth (statement tokens)
      (Parser.statement (Parser.nestingLimit - depth)) := by
  have hlevel : ∀ depth, (depth < Parser.nestingLimit → Begins tokens (depth + 1)
      (statement tokens) (Parser.statement (Parser.nestingLimit - (depth + 1)))) →
      Begins tokens depth (statement tokens) (Parser.statement (Parser.nestingLimit - depth)) := by
    intro depth hinner
    rw [Parser.statement_eq]
    exact begins_statementWith (implements_expression tokens depth) (implements_block_of hinner)
      (Parser.stepping_switchItem (Parser.walking_expression _) (Parser.walking_block _))
  obtain ⟨room, hroom⟩ : ∃ room, Parser.nestingLimit - depth = room := ⟨_, rfl⟩
  induction room generalizing depth with
  | zero => exact hlevel depth fun hlimit => by omega
  | succ room ih => exact hlevel depth fun _ => ih (depth + 1) (by omega)

/-- **A block** is parsed with the room that the depth of the machine leaves. -/
lemma implements_block (tokens : List Token) (depth : Nat) (boundaries : List String) :
    Implements tokens depth (block tokens boundaries)
      (Parser.block (Parser.nestingLimit - depth) boundaries) :=
  implements_block_of (fun _ => begins_statement tokens (depth + 1)) boundaries

/-- **A program** is parsed with the room that the depth of the machine leaves; on the outermost
level that is all. -/
lemma implements_program (tokens : List Token) (depth : Nat) :
    Implements tokens depth (program tokens)
      (Parser.manyUntil (fun _ => false) (Parser.statement (Parser.nestingLimit - depth))) := by
  refine implements_manyUntil (fun _ => by rw [Machine.program]) ?_
    (begins_statement tokens depth) (Parser.stepping_statement _)
  simpa only [Bool.or_false] using answers_atEnd

end Machine

end DialogueScript
