import DialogueScript.Proofs.Parser.Lockstep
import DialogueScript.Script.Basic

set_option autoImplicit false

/-!
# The parser moves forward

Whatever the tokens are, every function of the parsing machine gives a result, never goes back,
never goes past the end, comes out as deep as it went in, and keeps the earlier reports. A statement
takes at least one token, and one that is dropped has been reported, unless it was an empty line.

## Main definitions

* `DialogueScript.Parser.Explains` — a parser that finds nothing has reported something.
* `DialogueScript.Machine.Keeps` — what a function does to the state.
* `DialogueScript.Machine.Routine` — the functions of the machine.

## Main results

* `DialogueScript.Machine.Routine.proceeds` — each function, from every state inside the input.
* `DialogueScript.Machine.exists_statement` — statements.
* `DialogueScript.parsing_moves_forward` — all together, for every token list.
-/

namespace DialogueScript

namespace Parser

/-! ## Nothing is dropped in silence -/

section Explaining

variable {α β : Type}

/-- Where the parser finds nothing, it has reported something. -/
def Explains (p : Parser (Option α)) : Prop :=
  ∀ c, (p c).value = none → (p c).errors ≠ []

/-- Where there is a result, nothing is to be explained. -/
lemma explains_some (a : α) : Explains (pure (some a)) := by
  intro _ hnone
  cases hnone

/-- Only what comes last decides what is found. -/
lemma explains_bind {p : Parser β} {f : β → Parser (Option α)} (hf : ∀ b, Explains (f b)) :
    Explains (p >>= f) := fun _ hnone =>
  List.append_ne_nil_of_right_ne_nil _ (hf _ _ hnone)

/-- A report explains whatever comes after it. -/
lemma explains_report_bind {fault : Fault} {q : Parser (Option α)} :
    Explains (report fault >>= fun _ => q) := fun _ _ => List.cons_ne_nil _ _

/-- Giving up is a report. -/
lemma explains_giveUp (fault : Fault) : Explains (giveUp fault : Parser (Option α)) :=
  explains_report_bind

/-- A choice explains itself if both of its sides do. -/
lemma explains_ite {condition : Prop} [Decidable condition] {p q : Parser (Option α)}
    (hp : Explains p) (hq : Explains q) : Explains (if condition then p else q) := by
  split
  · exact hp
  · exact hq

/-- A statement without the word that closes it is reported. -/
lemma explains_closedBy (word : String) (fault : Fault) (s : Stmt) :
    Explains (takeKeyword word >>= fun closed =>
      if closed = true then pure (some s) else giveUp fault) := by
  refine explains_bind fun closed => ?_
  cases closed with
  | true => exact explains_some s
  | false => exact explains_giveUp fault

variable {expr : Parser (Option Expr)} {block : List String → Parser (List Stmt)}

/-- An assignment that comes to nothing is reported. -/
lemma explains_assignment : Explains (assignment expr) := by
  refine explains_bind fun _ => explains_bind fun _ => explains_bind fun value => ?_
  cases value with
  | none => exact explains_giveUp _
  | some value => exact explains_some _

/-- A call that comes to nothing is reported. -/
lemma explains_callStatement : Explains (callStatement expr) := by
  refine explains_bind fun _ => explains_bind fun opening => ?_
  cases opening with
  | false => exact explains_giveUp _
  | true =>
    refine explains_bind fun _ => explains_bind fun closing => ?_
    cases closing with
    | true => exact explains_some _
    | false => exact explains_giveUp _

/-- A declaration of a function that comes to nothing is reported. -/
lemma explains_functionDeclaration : Explains (functionDeclaration block) := by
  refine explains_bind fun _ => explains_bind fun isName => ?_
  cases isName with
  | false => exact explains_giveUp _
  | true =>
    exact explains_bind fun _ => explains_bind fun _ => explains_bind fun _ =>
      explains_closedBy _ _ _

/-- A declaration without names is reported. -/
lemma explains_globalDeclaration : Explains globalDeclaration := by
  refine explains_bind fun _ => explains_bind fun names => ?_
  cases names with
  | nil => exact explains_giveUp _
  | cons name names => exact explains_some _

/-- A choice that comes to nothing is reported. -/
lemma explains_switchStatement : Explains (switchStatement expr block) := by
  refine explains_bind fun _ => explains_bind fun selector => ?_
  cases selector with
  | none => exact explains_giveUp _
  | some selector => exact explains_bind fun _ => explains_closedBy _ _ _

/-- A `return` never comes to nothing without a report. -/
lemma explains_returnStatement : Explains (returnStatement expr) := by
  refine explains_bind fun _ => explains_bind fun hasValue => ?_
  cases hasValue with
  | true => exact explains_bind fun _ => explains_some _
  | false => exact explains_some _

/-- A statement that begins with a reserved word. Branches and loops are only given up where their
last word is missing. -/
lemma explains_keywordStatement (word : String) : Explains (keywordStatement expr block word) := by
  unfold keywordStatement
  refine explains_ite explains_functionDeclaration ?_
  refine explains_ite explains_globalDeclaration ?_
  refine explains_ite (explains_bind fun _ => explains_bind fun _ => explains_some _) ?_
  refine explains_ite (explains_bind fun _ => explains_some _) ?_
  refine explains_ite (explains_bind fun _ => explains_bind fun _ => explains_bind fun _ =>
    explains_bind fun _ => explains_closedBy _ _ _) ?_
  refine explains_ite explains_switchStatement ?_
  refine explains_ite (explains_bind fun _ => explains_bind fun _ => explains_bind fun _ =>
    explains_closedBy _ _ _) ?_
  exact explains_ite explains_returnStatement explains_report_bind

/-- **A statement that is dropped has been reported**, unless it is an empty line. -/
lemma errors_ne_nil_of_statement {room : Nat} {c : Cursor} (hkind : c.peek.kind ≠ .newline)
    (hnone : (statement room c).value = none) : (statement room c).errors ≠ [] := by
  rw [statement_eq, statementWith, peek, look_bind_apply] at hnone ⊢
  cases hpeek : c.peek.kind with
  | keyword =>
    rw [hpeek] at hnone
    exact explains_keywordStatement _ c hnone
  | identifier =>
    rw [hpeek] at hnone
    refine explains_bind (fun isAssignment => ?_) c hnone
    cases isAssignment with
    | true => exact explains_assignment
    | false => exact explains_callStatement
  | newline => exact absurd hpeek hkind
  | string => exact List.cons_ne_nil _ _
  | number => exact List.cons_ne_nil _ _
  | boolean => exact List.cons_ne_nil _ _
  | symbol => exact List.cons_ne_nil _ _
  | eof => exact List.cons_ne_nil _ _

end Explaining

end Parser

namespace Machine

variable {tokens : List Token} {α β : Type} {m m' : Machine}

/-! ## Going on -/

/-- What a function of the machine does to the state. -/
structure Keeps (tokens : List Token) (m m' : Machine) : Prop where
  /-- It does not go back. -/
  forward : m.position ≤ m'.position
  /-- It does not go past the end. -/
  inside : m'.position ≤ stop tokens
  /-- It is as deep as before. -/
  depth : m'.depth = m.depth
  /-- The earlier reports are still there. -/
  errors : m.errors <+: m'.errors

/-- From a state, a step of the machine gives a result, has only moved and is as deep as before. -/
def Proceeds (tokens : List Token) (step : Nat → MachineM α) (m : Machine) : Prop :=
  ∃ a m', Gives step m a m' ∧ Moves tokens m m' ∧ m'.depth = m.depth

section Proceeding

variable {step : Nat → MachineM α} {f : Nat → α → MachineM β} {p : Parser α}

/-- What only moves, from inside the input and to the same depth, keeps all that a function of the
machine keeps. -/
lemma Moves.keeps (h : Moves tokens m m') (hinside : m.position ≤ stop tokens)
    (hdepth : m'.depth = m.depth) : Keeps tokens m m' where
  forward := (h.position_le hinside).1
  inside := (h.position_le hinside).2
  depth := hdepth
  errors := h.errors_prefix hinside

/-- A step that follows a parser proceeds. -/
lemma Follows.proceeds (h : Follows tokens step p m) : Proceeds tokens step m := by
  obtain ⟨m', hstep, hagrees⟩ := h
  exact ⟨_, m', hstep, hagrees.moves, hagrees.depth⟩

/-- A step that implements a parser proceeds from everywhere inside the input. -/
lemma Implements.proceeds (h : Implements tokens m.depth step p)
    (hinside : m.position ≤ stop tokens) : Proceeds tokens step m :=
  (h m hinside rfl).proceeds

/-- To proceed with one unit of fuel put aside is to proceed. -/
lemma Proceeds.of_succ (h : Proceeds tokens (fun fuel => step (fuel + 1)) m) :
    Proceeds tokens step m := by
  obtain ⟨a, m', hgives, hkept⟩ := h
  exact ⟨a, m', hgives.of_succ, hkept⟩

/-- Steps one after the other proceed if each does where the one before has left it. -/
lemma Proceeds.bind (h : Proceeds tokens step m)
    (hf : ∀ a mid, Moves tokens m mid → mid.depth = m.depth →
      Proceeds tokens (fun fuel => f fuel a) mid) :
    Proceeds tokens (fun fuel => step fuel >>= f fuel) m := by
  obtain ⟨a, mid, hstep, hmoves, hdepth⟩ := h
  obtain ⟨b, m', hf', hmoves', hdepth'⟩ := hf a mid hmoves hdepth
  exact ⟨b, m', hstep.bind hf', hmoves.trans hmoves', hdepth'.trans hdepth⟩

/-- A step that gives a result and changes nothing. -/
lemma proceeds_of_eq {step : MachineM α} {a : α} (h : step m = some (a, m)) :
    Proceeds tokens (fun _ => step) m :=
  ⟨a, m, gives_of_eq h, .refl, rfl⟩

/-- A choice proceeds if both of its sides do. -/
lemma proceeds_ite {condition : Prop} [Decidable condition] {here there : Nat → MachineM α}
    (hhere : Proceeds tokens here m) (hthere : Proceeds tokens there m) :
    Proceeds tokens (fun fuel => if condition then here fuel else there fuel) m := by
  by_cases h : condition
  · simpa only [if_pos h] using hhere
  · simpa only [if_neg h] using hthere

/-- Taking a token proceeds. -/
lemma proceeds_advance (hinside : m.position ≤ stop tokens) :
    Proceeds tokens (fun _ => advance tokens) m := by
  rcases Nat.lt_or_eq_of_le hinside with hlt | heq
  · exact ⟨_, _, gives_of_eq (advance_of_lt hlt), .advance (advance_of_lt hlt), rfl⟩
  · obtain ⟨token, htoken⟩ := advance_of_eq heq
    exact proceeds_of_eq htoken

/-- Asking for the token that was taken last proceeds. -/
lemma proceeds_previous (hinside : m.position ≤ stop tokens) :
    Proceeds tokens (fun _ => previous tokens) m := by
  obtain ⟨token, htoken⟩ := exists_previous hinside
  exact proceeds_of_eq htoken

/-- A report on any line proceeds. -/
lemma proceeds_reportAt (line : Nat) (fault : Fault) :
    Proceeds tokens (fun _ => reportAt line fault) m :=
  ⟨(), _, gives_of_eq rfl, .report _, rfl⟩

/-- A step that begins by taking a token goes on from the end as well, where none is taken. -/
lemma Taking.proceeds (h : Taking tokens m.depth step p) (hinside : m.position ≤ stop tokens) :
    Proceeds tokens step m := by
  obtain ⟨rest, q, hstep, -, hrest⟩ := h
  obtain rfl : step = fun fuel => advance tokens >>= rest fuel := funext hstep
  refine (proceeds_advance hinside).bind fun token mid hmoves hdepth => ?_
  exact (hrest token mid (hmoves.position_le hinside).2 hdepth).proceeds

/-- A report, and then a token is passed over. -/
lemma proceeds_unexpected (hinside : m.position ≤ stop tokens) (line : Nat) (fault : Fault) :
    Proceeds tokens
      (fun _ => reportAt line fault >>= fun _ => advance tokens >>= fun _ =>
        pure (none : Option Stmt)) m :=
  (proceeds_reportAt line fault).bind fun _ _ hmoves _ =>
    (proceeds_advance (hmoves.position_le hinside).2).bind fun _ _ _ _ => proceeds_of_eq rfl

end Proceeding

/-! ## The functions of the machine -/

/-- What stands directly in a `switch` takes a token, whatever the room is. -/
lemma stepping_switchItem (room : Nat) :
    Parser.Stepping (Parser.switchItem (Parser.expression room) (Parser.block room)) :=
  Parser.stepping_switchItem (Parser.walking_expression room) (Parser.walking_block room)

/-- A statement behind a reserved word goes on from every state, whatever the word is. -/
lemma proceeds_keywordStatement (token : Token) (hinside : m.position ≤ stop tokens) :
    Proceeds tokens (keywordStatement tokens token) m := by
  have hexpr := implements_expression tokens m.depth
  have hblock := implements_block tokens m.depth
  refine .of_succ ?_
  simp only [Machine.keywordStatement]
  refine proceeds_ite ((implements_functionDeclaration hblock).proceeds hinside) ?_
  refine proceeds_ite (implements_globalDeclaration.proceeds hinside) ?_
  refine proceeds_ite (implements_localDeclaration.proceeds hinside) ?_
  refine proceeds_ite ((proceeds_advance hinside).bind fun _ _ _ _ => proceeds_of_eq rfl) ?_
  refine proceeds_ite ((implements_branchStatement hexpr hblock).proceeds hinside) ?_
  refine proceeds_ite
    ((implements_switchStatement hexpr hblock (stepping_switchItem _)).proceeds hinside) ?_
  refine proceeds_ite ((implements_loopStatement hexpr hblock).proceeds hinside) ?_
  exact proceeds_ite ((taking_returnStatement hexpr).proceeds hinside)
    (proceeds_unexpected hinside _ _)

/-- At the end, the machine reports the end token and stays. -/
lemma gives_statement_of_eq (h : m.position = stop tokens) :
    Gives (statement tokens) m none { m with errors := m.errors ++
      [⟨(m.seen tokens).line, .unexpectedToken .eof (m.seen tokens).text⟩] } := by
  let fault : Fault := .unexpectedToken .eof (m.seen tokens).text
  let reported : Machine := { m with errors := m.errors ++ [⟨(m.seen tokens).line, fault⟩] }
  have hreport : Gives (fun _ => reportAt (m.seen tokens).line fault) m () reported :=
    gives_of_eq rfl
  obtain ⟨token, htoken⟩ : ∃ token, advance tokens reported = some (token, reported) :=
    advance_of_eq h
  refine .of_succ ?_
  simp only [Machine.statement]
  refine (gives_of_eq (peek_apply tokens m)).bind ?_
  rw [(cursor_of_eq h).2.1]
  exact hreport.bind ((gives_of_eq htoken).bind (gives_of_eq rfl))

/-- **A statement** gives a result. Before the end it takes a token; and if it finds nothing, on
anything but an empty line, it has added a report.

**Proof sketch.** Before the end the machine follows the parser, which takes a token and explains
what it drops. At the end there is one report. -/
lemma exists_statement (hinside : m.position ≤ stop tokens) :
    ∃ found m', Gives (statement tokens) m found m' ∧
      (Moves tokens m m' ∧ m'.depth = m.depth) ∧
      (m.position < stop tokens → m.position < m'.position) ∧
      (found = none → (m.seen tokens).kind ≠ .newline →
        ∃ error later, m'.errors = m.errors ++ error :: later) := by
  rcases Nat.lt_or_eq_of_le hinside with hlt | heq
  · obtain ⟨m', hstatement, hagrees⟩ := begins_statement tokens m.depth m hlt rfl
    refine ⟨_, m', hstatement, ⟨hagrees.moves, hagrees.depth⟩, fun _ => ?_, fun hnone hkind => ?_⟩
    · have hne : (m.cursor tokens).tokens ≠ [] := by
        rw [(cursor_of_lt hlt).1]
        exact List.cons_ne_nil _ _
      have hshort := (Parser.stepping_statement (Parser.nestingLimit - m.depth)).length_lt hne
      rw [← hagrees.cursor, length_cursor, length_cursor] at hshort
      omega
    · rw [← (token_at_of_lt hlt).1] at hkind
      obtain ⟨error, later, hlist⟩ :=
        List.exists_cons_of_ne_nil (Parser.errors_ne_nil_of_statement hkind hnone)
      exact ⟨error, later, by rw [hagrees.errors, hlist]⟩
  · exact ⟨none, _, gives_statement_of_eq heq, ⟨.report _, rfl⟩, fun hlt => by omega,
      fun _ _ => ⟨_, [], rfl⟩⟩

/-- The functions of the machine, each as a function of the fuel. -/
inductive Routine (tokens : List Token) : {α : Type} → (Nat → MachineM α) → Prop
  | peek : Routine tokens (fun _ => peek tokens)
  | atEnd : Routine tokens (fun _ => atEnd tokens)
  | previous : Routine tokens (fun _ => previous tokens)
  | advance : Routine tokens (fun _ => advance tokens)
  | nextIsSymbol (symbol : String) : Routine tokens (fun _ => nextIsSymbol tokens symbol)
  | atKind (kind : TokenKind) : Routine tokens (fun _ => atKind tokens kind)
  | atSymbol (symbol : String) : Routine tokens (fun _ => atSymbol tokens symbol)
  | atKeyword (word : String) : Routine tokens (fun _ => atKeyword tokens word)
  | atLine (line : Nat) : Routine tokens (fun _ => atLine tokens line)
  | atBoundary (words : List String) : Routine tokens (fun _ => atBoundary tokens words)
  | atListEnd : Routine tokens (fun _ => atListEnd tokens)
  | takeSymbol (symbol : String) : Routine tokens (fun _ => takeSymbol tokens symbol)
  | takeKeyword (word : String) : Routine tokens (fun _ => takeKeyword tokens word)
  | reportAt (line : Nat) (fault : Fault) : Routine tokens (fun _ => reportAt line fault)
  | report (fault : Fault) : Routine tokens (fun _ => report tokens fault)
  | giveUp {α : Type} (fault : Fault) :
      Routine tokens (fun _ => (giveUp tokens fault : MachineM (Option α)))
  | skipBlock (boundaries : List String) (level : Nat) :
      Routine tokens (skipBlock tokens boundaries level)
  | skipGroup (line level : Nat) : Routine tokens (skipGroup tokens line level)
  | expression : Routine tokens (expression tokens)
  | callExpression : Routine tokens (callExpression tokens)
  | callArguments (name : String) : Routine tokens (callArguments tokens name)
  | argumentLoop : Routine tokens (argumentLoop tokens)
  | condition : Routine tokens (condition tokens)
  | assignment : Routine tokens (assignment tokens)
  | statementArgumentLoop : Routine tokens (statementArgumentLoop tokens)
  | callStatement : Routine tokens (callStatement tokens)
  | nameLoop : Routine tokens (nameLoop tokens)
  | globalDeclaration : Routine tokens (globalDeclaration tokens)
  | localDeclaration : Routine tokens (localDeclaration tokens)
  | returnStatement : Routine tokens (returnStatement tokens)
  | parameter : Routine tokens (fun _ => parameter tokens)
  | parameterLoop : Routine tokens (parameterLoop tokens)
  | parameterList : Routine tokens (parameterList tokens)
  | statement : Routine tokens (statement tokens)
  | keywordStatement (token : Token) : Routine tokens (keywordStatement tokens token)
  | block (boundaries : List String) : Routine tokens (block tokens boundaries)
  | blockLoop (boundaries : List String) : Routine tokens (blockLoop tokens boundaries)
  | functionDeclaration : Routine tokens (functionDeclaration tokens)
  | branchStatement : Routine tokens (branchStatement tokens)
  | elseBlock : Routine tokens (elseBlock tokens)
  | loopStatement : Routine tokens (loopStatement tokens)
  | switchStatement : Routine tokens (switchStatement tokens)
  | caseLoop : Routine tokens (caseLoop tokens)
  | switchItem : Routine tokens (switchItem tokens)
  | program : Routine tokens (program tokens)

/-- **Every function of the machine** gives a result from every state inside the input, does nothing
but move, and comes out as deep as it went in. -/
lemma Routine.proceeds {step : Nat → MachineM α} (h : Routine tokens step)
    (hinside : m.position ≤ stop tokens) : Proceeds tokens step m := by
  have hexpr := implements_expression tokens m.depth
  have hblock := implements_block tokens m.depth
  have hitem := stepping_switchItem (Parser.nestingLimit - m.depth)
  cases h with
  | peek => exact proceeds_of_eq rfl
  | atEnd => exact proceeds_of_eq (answers_atEnd m hinside)
  | previous => exact proceeds_previous hinside
  | advance => exact proceeds_advance hinside
  | nextIsSymbol symbol => exact proceeds_of_eq rfl
  | atKind kind => exact proceeds_of_eq rfl
  | atSymbol symbol => exact proceeds_of_eq (answers_atSymbol symbol m hinside)
  | atKeyword word => exact proceeds_of_eq (answers_atKeyword word m hinside)
  | atLine line => exact proceeds_of_eq (answers_atLine line m hinside)
  | atBoundary words => exact proceeds_of_eq (answers_atBoundary words m hinside)
  | atListEnd => exact proceeds_of_eq (answers_atListEnd m hinside)
  | takeSymbol symbol => exact (implements_takeSymbol symbol).proceeds hinside
  | takeKeyword word => exact (implements_takeKeyword word).proceeds hinside
  | reportAt line fault => exact proceeds_reportAt line fault
  | report fault => exact (implements_report fault).proceeds hinside
  | giveUp fault => exact (implements_giveUp fault).proceeds hinside
  | skipBlock boundaries level => exact (follows_skipBlock boundaries level hinside).proceeds
  | skipGroup line level => exact (follows_skipGroup line level hinside).proceeds
  | expression => exact hexpr.proceeds hinside
  | callExpression =>
    exact .of_succ
      ((taking_callExpression_of fun _ => implements_expression tokens _).proceeds hinside)
  | callArguments name => exact (implements_callArguments hexpr name).proceeds hinside
  | argumentLoop => exact (implements_argumentLoop hexpr).proceeds hinside
  | condition => exact (implements_condition hexpr).proceeds hinside
  | assignment => exact (taking_assignment hexpr).proceeds hinside
  | statementArgumentLoop => exact (implements_statementArgumentLoop hexpr).proceeds hinside
  | callStatement => exact (taking_callStatement hexpr).proceeds hinside
  | nameLoop => exact implements_nameLoop.proceeds hinside
  | globalDeclaration => exact implements_globalDeclaration.proceeds hinside
  | localDeclaration => exact implements_localDeclaration.proceeds hinside
  | returnStatement => exact (taking_returnStatement hexpr).proceeds hinside
  | parameter => exact implements_parameter.proceeds hinside
  | parameterLoop => exact implements_parameterLoop.proceeds hinside
  | parameterList => exact implements_parameterList.proceeds hinside
  | statement =>
    obtain ⟨found, m', hstatement, hmoves, -⟩ := exists_statement hinside
    exact ⟨found, m', hstatement, hmoves⟩
  | keywordStatement token => exact proceeds_keywordStatement token hinside
  | block boundaries => exact (hblock boundaries).proceeds hinside
  | blockLoop boundaries =>
    exact (implements_blockLoop (begins_statement tokens m.depth) boundaries).proceeds hinside
  | functionDeclaration => exact (implements_functionDeclaration hblock).proceeds hinside
  | branchStatement => exact (implements_branchStatement hexpr hblock).proceeds hinside
  | elseBlock => exact (implements_elseBlock hblock).proceeds hinside
  | loopStatement => exact (implements_loopStatement hexpr hblock).proceeds hinside
  | switchStatement => exact (implements_switchStatement hexpr hblock hitem).proceeds hinside
  | caseLoop => exact (implements_caseLoop hexpr hblock hitem).proceeds hinside
  | switchItem => exact (implements_switchItem hexpr hblock).proceeds hinside
  | program => exact (implements_program tokens m.depth).proceeds hinside

/-- From a state, the machine parses as the parser does with the room that its depth leaves. -/
structure InStep (tokens : List Token) (m : Machine) : Prop where
  /-- Expressions. -/
  expression : Follows tokens (expression tokens)
    (Parser.expression (Parser.nestingLimit - m.depth)) m
  /-- Conditions. -/
  condition : Follows tokens (condition tokens)
    (Parser.condition (Parser.expression (Parser.nestingLimit - m.depth))) m
  /-- Blocks. -/
  block : ∀ boundaries, Follows tokens (block tokens boundaries)
    (Parser.block (Parser.nestingLimit - m.depth) boundaries) m
  /-- Statements, which are only looked for before the end. -/
  statement : m.position < stop tokens →
    Follows tokens (statement tokens) (Parser.statement (Parser.nestingLimit - m.depth)) m

/-- From everywhere inside the input, the machine parses as the parser does. -/
lemma inStep (hinside : m.position ≤ stop tokens) : InStep tokens m where
  expression := implements_expression tokens m.depth m hinside rfl
  condition := implements_condition (implements_expression tokens m.depth) m hinside rfl
  block boundaries := implements_block tokens m.depth boundaries m hinside rfl
  statement hlt := begins_statement tokens m.depth m hlt rfl

/-- **A whole token list**: the machine finds the statements and the faults that the parser finds,
and is outside all blocks at the end. -/
lemma exists_parse (tokens : List Token) :
    ∃ m' enough, (∀ fuel, enough ≤ fuel → parse tokens fuel = some ((parseTokens tokens).1, m')) ∧
      m'.errors = (parseTokens tokens).2 ∧ m'.depth = 0 := by
  obtain ⟨m', hgives, hagrees⟩ := implements_program tokens 0 start (Nat.zero_le _) rfl
  rw [cursor_start] at hgives hagrees
  obtain ⟨enough, henough⟩ := hgives
  exact ⟨m', enough, henough, hagrees.errors, hagrees.depth⟩

end Machine

/-- **Parsing moves forward and keeps its books.** For every token list, with end tokens anywhere or
nowhere:

* no state that can be reached from the beginning lies past the first end token or, without one,
  past the list;
* from every state that does not, every function of the machine gives a result with enough fuel (so
  that it ends, and reads back no token that is not there), does not go back or past the end, comes
  out as deep as it went in, and keeps the earlier reports;
* a statement that begins before the end takes at least one token, and one that finds nothing, on
  anything but an empty line, has added a report;
* the machine parses as the parser does, and a whole list to the same statements and faults.

**Proof sketch.** The machine follows the parser on cursors, step by step, so that its loops end
where those of the parser do. Positions and reports are read off what a machine can do at all, and
the rest is known of the parser. -/
theorem parsing_moves_forward (tokens : List Token) :
    (∀ m, Machine.Moves tokens Machine.start m → m.position ≤ Machine.stop tokens) ∧
      (∀ m : Machine, m.position ≤ Machine.stop tokens →
        (∀ {α : Type} {step : Nat → MachineM α}, Machine.Routine tokens step →
          ∃ a m', Machine.Gives step m a m' ∧ Machine.Moves tokens m m' ∧
            Machine.Keeps tokens m m') ∧
        (∃ found m', Machine.Gives (Machine.statement tokens) m found m' ∧
          (m.position < Machine.stop tokens → m.position < m'.position) ∧
          (found = none → (m.seen tokens).kind ≠ .newline →
            ∃ error later, m'.errors = m.errors ++ error :: later)) ∧
        Machine.InStep tokens m) ∧
      ∃ m' enough,
        (∀ fuel, enough ≤ fuel →
          Machine.parse tokens fuel = some ((parseTokens tokens).1, m')) ∧
        m'.errors = (parseTokens tokens).2 ∧ m'.depth = 0 := by
  refine ⟨fun m hmoves => (hmoves.position_le (Nat.zero_le _)).2, fun m hinside => ?_,
    Machine.exists_parse tokens⟩
  refine ⟨fun hroutine => ?_, ?_, Machine.inStep hinside⟩
  · obtain ⟨a, m', hgives, hmoves, hdepth⟩ := hroutine.proceeds hinside
    exact ⟨a, m', hgives, hmoves, hmoves.keeps hinside hdepth⟩
  · obtain ⟨found, m', hgives, -, htakes, hexplains⟩ := Machine.exists_statement hinside
    exact ⟨found, m', hgives, htakes, hexplains⟩

/-- A branch that the end token cuts off: its statement stops there, and the name behind the end
token is not looked at. -/
theorem parsing_moves_forward_cut_off :
    let tokens : List Token := [⟨.keyword, "if", 1⟩, ⟨.eof, "", 2⟩, ⟨.identifier, "x", 3⟩]
    Machine.start.position < Machine.stop tokens ∧
      ∃ found m', Machine.Gives (Machine.statement tokens) Machine.start found m' ∧
        m'.position = 1 ∧ m'.depth = 0 ∧
        (found = none → ∃ error later, m'.errors = error :: later) := by
  intro tokens
  have hbefore : Machine.start.position < Machine.stop tokens := by decide
  obtain ⟨hroutines, ⟨found, m', hgives, htakes, hexplains⟩, -⟩ :=
    (parsing_moves_forward tokens).2.1 Machine.start (Nat.le_of_lt hbefore)
  obtain ⟨again, last, hagain, -, hkeeps⟩ := hroutines .statement
  obtain ⟨rfl, rfl⟩ := hgives.unique hagain
  have hposition : m'.position = 1 := Nat.le_antisymm hkeeps.inside (htakes hbefore)
  exact ⟨hbefore, found, m', hgives, hposition, hkeeps.depth, fun hnone =>
    hexplains hnone (by decide)⟩

end DialogueScript
