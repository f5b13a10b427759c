import DialogueScript.Proofs.Parser.Acceptance

set_option autoImplicit false

/-!
# What a parser can do

A parser takes the token at the cursor or reports a fault there, again and again, and nothing else.
Passing over a block or a group is taking its tokens one by one. This is said once, as a relation
between a cursor, some reports and a later cursor, and what holds of every run of a parser, whatever
the tokens are, follows from it.

A statement takes at least one token, so that the number of tokens ahead is enough fuel for a
repetition of statements, and more fuel changes nothing.

## Main definitions

* `DialogueScript.Walks` — from a cursor to a later one, with some reports on the way.
* `DialogueScript.Parser.Walking` — a parser does nothing else.
* `DialogueScript.Parser.Stepping` — a parser takes the token at the cursor and walks on.

## Main results

* `DialogueScript.Walks.suffix` — the cursor only moves forward.
* `DialogueScript.Parser.walking_expression`, `DialogueScript.Parser.walking_program` — expressions
  and programs.
* `DialogueScript.Parser.stepping_statement` — statements.
* `DialogueScript.Parser.manyWithin_eq_of_le` — more fuel changes nothing.
* `DialogueScript.Parser.manyUntil_of_go` — a repetition goes on behind an item.
-/

namespace DialogueScript

/-- What a parser can do: from a cursor to a later one, with some reports on the way. -/
inductive Walks : Cursor → List ParseError → Cursor → Prop
  /-- Nothing. -/
  | refl {c : Cursor} : Walks c [] c
  /-- One thing and then another. -/
  | trans {c mid c' : Cursor} {first second : List ParseError} (hfirst : Walks c first mid)
      (hsecond : Walks mid second c') : Walks c (first ++ second) c'
  /-- Take the token at the cursor. -/
  | advance {c : Cursor} : Walks c [] c.advance
  /-- Report a fault at the cursor. -/
  | report {c : Cursor} (fault : Fault) : Walks c [⟨c.peek.line, fault⟩] c

namespace Walks

variable {c c' : Cursor} {errors : List ParseError}

/-- **The cursor only moves forward**, and the input ends where it did. -/
lemma suffix (h : Walks c errors c') : c'.tokens <:+ c.tokens ∧ c'.endLine = c.endLine := by
  induction h with
  | refl => exact ⟨List.suffix_rfl, rfl⟩
  | trans _ _ ihfirst ihsecond =>
    exact ⟨ihsecond.1.trans ihfirst.1, ihsecond.2.trans ihfirst.2⟩
  | advance => exact ⟨List.tail_suffix _, rfl⟩
  | report _ => exact ⟨List.suffix_rfl, rfl⟩

/-- Tokens are passed over by taking them one by one. -/
lemma of_suffix {ts rest : List Token} {n : Nat} (h : rest <:+ ts) :
    Walks ⟨ts, n⟩ [] ⟨rest, n⟩ := by
  obtain ⟨taken, rfl⟩ := h
  induction taken with
  | nil => exact .refl
  | cons t taken ih =>
    have hstep : Walks ⟨t :: (taken ++ rest), n⟩ [] ⟨taken ++ rest, n⟩ := .advance
    exact hstep.trans ih

end Walks

/-! ## Passing over -/

/-- Passing over a block leaves a part of the tokens. -/
lemma tokensFromBoundary_suffix (boundaries : List String) (depth : Nat) (ts : List Token) :
    tokensFromBoundary boundaries depth ts <:+ ts := by
  induction ts generalizing depth with
  | nil => exact List.suffix_rfl
  | cons t ts ih =>
    have hlater : ∀ depth, tokensFromBoundary boundaries depth ts <:+ t :: ts := fun depth =>
      (ih depth).trans (List.suffix_cons t ts)
    rw [tokensFromBoundary]
    split
    · exact List.suffix_rfl
    · split
      · exact hlater _
      · split <;> exact hlater _

/-- Passing over a group leaves a part of the tokens. -/
lemma tokensAfterGroup_suffix (line depth : Nat) (ts : List Token) :
    tokensAfterGroup line depth ts <:+ ts := by
  induction ts generalizing depth with
  | nil => exact List.suffix_rfl
  | cons t ts ih =>
    have hlater : ∀ depth, tokensAfterGroup line depth ts <:+ t :: ts := fun depth =>
      (ih depth).trans (List.suffix_cons t ts)
    rw [tokensAfterGroup]
    split
    · exact List.suffix_rfl
    · split
      · exact hlater _
      · split
        · split
          · exact List.suffix_cons t ts
          · exact hlater _
        · exact hlater _

namespace Parser

variable {α β : Type} {p : Parser α} {f : α → Parser β}

/-! ## Primitives -/

/-- The parser takes tokens and reports faults, and does nothing else. -/
def Walking (p : Parser α) : Prop :=
  ∀ c, Walks c (p c).errors (p c).rest

/-- A parser that does nothing stays where it is. -/
lemma walking_pure (a : α) : Walking (pure a : Parser α) :=
  fun _ => .refl

/-- Walks one behind the other are a walk. -/
lemma Walking.bind (hp : Walking p) (hf : ∀ a, Walking (f a)) : Walking (p >>= f) :=
  fun c => (hp c).trans (hf _ _)

/-- Looking at the cursor is a walk on the spot. -/
lemma walking_look (g : Cursor → α) : Walking (look g) :=
  fun _ => .refl

/-- A question about the cursor is answered on the spot. -/
lemma look_bind_apply (g : Cursor → α) (f : α → Parser β) (c : Cursor) :
    (look g >>= f) c = f (g c) c := rfl

/-- Taking a token is one step, or none at the end. -/
lemma walking_advance : Walking advance :=
  fun _ => .advance

/-- A report is made on the spot. -/
lemma walking_report (fault : Fault) : Walking (report fault) :=
  fun _ => .report fault

/-- The parser walks, and if there is a token at the cursor, then that is behind it at the end. -/
structure Stepping (p : Parser α) : Prop where
  /-- It walks. -/
  walking : Walking p
  /-- The token at the cursor is taken. -/
  takes : ∀ c, (p c).rest.tokens <:+ c.tokens.tail

/-- A parser that steps leaves fewer tokens than it found, if it found any. -/
lemma Stepping.length_lt {c : Cursor} (hp : Stepping p) (hc : c.tokens ≠ []) :
    (p c).rest.tokens.length < c.tokens.length := by
  have hle := (hp.takes c).length_le
  have hpos := List.length_pos_iff.mpr hc
  rw [List.length_tail] at hle
  omega

/-- Whoever takes a token first has stepped over it. -/
lemma stepping_advance_bind {f : Token → Parser β} (hf : ∀ t, Walking (f t)) :
    Stepping (advance >>= f) :=
  ⟨walking_advance.bind hf, fun c => (hf c.peek c.advance).suffix.1⟩

/-- A question beforehand does not keep a parser from stepping. -/
lemma stepping_look_bind {g : Cursor → α} (hf : ∀ a, Stepping (f a)) :
    Stepping (look g >>= f) :=
  ⟨(walking_look g).bind fun a => (hf a).walking, fun c => (hf (g c)).takes c⟩

/-- A report beforehand does not keep a parser from stepping. -/
lemma stepping_report_bind {fault : Fault} {q : Parser β} (hq : Stepping q) :
    Stepping (report fault >>= fun _ => q) :=
  ⟨(walking_report fault).bind fun _ => hq.walking, hq.takes⟩

/-- Taking a symbol that may be missing is a walk. -/
lemma walking_takeSymbol (symbol : String) : Walking (takeSymbol symbol) := by
  refine (walking_look _).bind fun found => ?_
  cases found with
  | true => exact walking_advance.bind fun _ => walking_pure _
  | false => exact walking_pure _

/-- Taking a reserved word that may be missing is a walk. -/
lemma walking_takeKeyword (word : String) : Walking (takeKeyword word) := by
  refine (walking_look _).bind fun found => ?_
  cases found with
  | true => exact walking_advance.bind fun _ => walking_pure _
  | false => exact walking_pure _

/-- Giving up is a report and no more. -/
lemma walking_giveUp (fault : Fault) : Walking (giveUp fault : Parser (Option α)) :=
  (walking_report fault).bind fun _ => walking_pure _

/-- Passing over a block is a walk over all of its tokens. -/
lemma walking_skipBlock (boundaries : List String) : Walking (skipBlock boundaries) :=
  fun _ => .of_suffix (tokensFromBoundary_suffix boundaries 0 _)

/-- Passing over a group is a walk over all of its tokens. -/
lemma walking_skipParenthesized : Walking skipParenthesized :=
  fun _ => .of_suffix (tokensAfterGroup_suffix _ 0 _)

/-- A loop walks if each of its rounds does, whatever its fuel. -/
lemma walking_fuelled {loop : Nat → Parser α} (h : ∀ fuel, Walking (loop fuel)) :
    Walking (fuelled loop) :=
  fun c => h _ c

/-- A repetition walks if its item does. -/
lemma walking_manyWithin {stop : Cursor → Bool} {item : Parser (Option α)}
    (hitem : Walking item) (fuel : Nat) : Walking (manyWithin stop item fuel) := by
  induction fuel with
  | zero => exact walking_pure _
  | succ fuel ih =>
    refine (walking_look _).bind fun stops => ?_
    cases stops with
    | true => exact walking_pure _
    | false => exact hitem.bind fun _ => ih.bind fun _ => walking_pure _

/-- A repetition up to where it has to stop walks if its item does. -/
lemma walking_manyUntil {stop : Cursor → Bool} {item : Parser (Option α)}
    (hitem : Walking item) : Walking (manyUntil stop item) :=
  walking_fuelled fun fuel => walking_manyWithin hitem fuel

/-! ## Expressions -/

/-- What stands behind an item of a list goes on behind a comma, and otherwise ends, perhaps with a
report. -/
lemma walking_goOnStrictly {loop : Parser (List α)} (hloop : Walking loop) (fault : Fault)
    (found : Option α) : Walking (goOnStrictly fault found loop) := by
  refine (walking_takeSymbol _).bind fun comma => ?_
  cases comma with
  | true => exact hloop.bind fun _ => walking_pure _
  | false =>
    refine (walking_look _).bind fun closing => ?_
    cases closing with
    | true => exact walking_pure _
    | false => exact (walking_report _).bind fun _ => walking_pure _

/-- Arguments are a walk over expressions and commas. -/
lemma walking_argumentsWithin {item : Parser (Option Expr)} (hitem : Walking item) (fuel : Nat) :
    Walking (argumentsWithin item fuel) := by
  induction fuel with
  | zero => exact walking_pure _
  | succ fuel ih =>
    refine (walking_look _).bind fun stops => ?_
    cases stops with
    | true => exact walking_pure _
    | false => exact hitem.bind fun found => walking_goOnStrictly ih .argumentSeparator found

/-- Arguments in parentheses are a walk if expressions are. -/
lemma walking_callArguments {item : Parser (Option Expr)} (hitem : Walking item) (name : String) :
    Walking (callArguments item name) := by
  refine (walking_takeSymbol _).bind fun _ =>
    (walking_fuelled (walking_argumentsWithin hitem)).bind fun args =>
      (walking_takeSymbol _).bind fun closing => ?_
  cases closing with
  | true => exact walking_pure _
  | false => exact (walking_report _).bind fun _ => walking_pure _

/-- An expression is a walk if its calls are. -/
lemma walking_expressionWith {call : String → Parser (Option Expr)}
    (hcall : ∀ name, Walking (call name)) : Walking (expressionWith call) := by
  refine (walking_look _).bind fun token => ?_
  split
  · refine (walking_look _).bind fun isCall => walking_advance.bind fun _ => ?_
    cases isCall with
    | true => exact hcall _
    | false => exact walking_pure _
  · exact walking_advance.bind fun _ => walking_pure _
  · exact walking_advance.bind fun _ => walking_pure _
  · exact walking_advance.bind fun _ => walking_pure _
  · exact (walking_report _).bind fun _ => walking_pure _

/-- The parser of expressions does nothing else. -/
lemma walking_expression (room : Nat) : Walking (expression room) := by
  induction room with
  | zero =>
    exact walking_expressionWith fun _ => (walking_report _).bind fun _ =>
      walking_skipParenthesized.bind fun _ => walking_pure _
  | succ room ih => exact walking_expressionWith fun name => walking_callArguments ih name

/-- A condition is a walk over its sides. -/
lemma walking_condition {operand : Parser (Option Expr)} (hoperand : Walking operand) :
    Walking (condition operand) := by
  refine hoperand.bind fun left => ?_
  cases left with
  | none => exact (walking_report _).bind fun _ => walking_pure _
  | some left =>
    refine (walking_takeSymbol _).bind fun equals => ?_
    cases equals with
    | false => exact (walking_report _).bind fun _ => walking_pure _
    | true =>
      refine hoperand.bind fun right => ?_
      cases right with
      | none => exact (walking_report _).bind fun _ => walking_pure _
      | some right => exact walking_pure _

/-! ## Statements -/

section Statements

variable {expr : Parser (Option Expr)} {block : List String → Parser (List Stmt)}

/-- A run of names is a walk over names and commas. -/
lemma walking_nameListWithin (fuel : Nat) : Walking (nameListWithin fuel) := by
  induction fuel with
  | zero => exact walking_pure _
  | succ fuel ih =>
    refine (walking_look _).bind fun isName => ?_
    cases isName with
    | true => exact walking_advance.bind fun _ => ih.bind fun _ => walking_pure _
    | false =>
      refine (walking_takeSymbol _).bind fun comma => ?_
      cases comma with
      | true => exact ih
      | false => exact walking_pure _

/-- The arguments of a call statement are a walk. -/
lemma walking_statementArgumentsWithin (hexpr : Walking expr) (fuel : Nat) :
    Walking (statementArgumentsWithin expr fuel) := by
  induction fuel with
  | zero => exact walking_pure _
  | succ fuel ih =>
    refine (walking_look _).bind fun stops => ?_
    cases stops with
    | true => exact walking_pure _
    | false =>
      refine hexpr.bind fun arg => ?_
      cases arg with
      | none => exact walking_pure _
      | some arg =>
        refine (walking_takeSymbol _).bind fun comma => ?_
        cases comma with
        | true => exact ih.bind fun _ => walking_pure _
        | false => exact walking_pure _

/-- Parameters are a walk over names and commas. -/
lemma walking_parametersWithin (fuel : Nat) : Walking (parametersWithin fuel) := by
  have hparameter : Walking parameter := by
    refine (walking_look _).bind fun isName => ?_
    cases isName with
    | true => exact walking_advance.bind fun _ => walking_pure _
    | false => exact walking_giveUp _
  induction fuel with
  | zero => exact walking_pure _
  | succ fuel ih =>
    refine (walking_look _).bind fun stops => ?_
    cases stops with
    | true => exact walking_pure _
    | false => exact hparameter.bind fun found => walking_goOnStrictly ih .parameterSeparator found

/-- A list of parameters in its parentheses is a walk. -/
lemma walking_parameterList : Walking parameterList := by
  refine (walking_takeSymbol _).bind fun opening => ?_
  cases opening with
  | false => exact walking_pure _
  | true =>
    refine (walking_fuelled walking_parametersWithin).bind fun params =>
      (walking_takeSymbol _).bind fun closing => ?_
    cases closing with
    | true => exact walking_pure _
    | false => exact (walking_report _).bind fun _ => walking_pure _

/-- A word that is required at the end of a statement, or else the statement is given up. -/
lemma walking_closedBy (word : String) (fault : Fault) (s : Stmt) :
    Walking (takeKeyword word >>= fun closed =>
      if closed = true then pure (some s) else giveUp fault) := by
  refine (walking_takeKeyword word).bind fun closed => ?_
  cases closed with
  | true => exact walking_pure _
  | false => exact walking_giveUp _

/-- What follows an attempt to take a reserved word takes a token, if it does so where the word is
missing. -/
lemma stepping_takeKeyword_bind {word : String} {f : Bool → Parser β} (hfound : Walking (f true))
    (hmissing : Stepping (f false)) : Stepping (takeKeyword word >>= f) := by
  refine ⟨(walking_takeKeyword word).bind fun found => ?_, fun c => ?_⟩
  · cases found with
    | true => exact hfound
    | false => exact hmissing.walking
  · cases hword : c.peek.isKeyword word with
    | true =>
      have htake : takeKeyword word c = ⟨true, [], c.advance⟩ := by
        rw [takeKeyword, atKeyword, look_bind_apply, if_pos hword]
        rfl
      have hsuffix : (f true c.advance).rest.tokens <:+ c.tokens.tail :=
        (hfound c.advance).suffix.1
      simpa only [bind, htake] using hsuffix
    | false =>
      have htake : takeKeyword word c = ⟨false, [], c⟩ := by
        rw [takeKeyword, atKeyword, look_bind_apply, if_neg (by simp [hword])]
        rfl
      simpa only [bind, htake] using hmissing.takes c

/-- What stands directly in a `switch` takes a token. -/
lemma stepping_switchItem (hexpr : Walking expr) (hblock : ∀ words, Walking (block words)) :
    Stepping (switchItem expr block) := by
  refine stepping_takeKeyword_bind (hexpr.bind fun value => ?_)
    (stepping_report_bind (stepping_advance_bind fun _ => walking_pure _))
  cases value with
  | none => exact walking_giveUp _
  | some value => exact (hblock _).bind fun _ => walking_pure _

/-- What stands behind `else` is a walk if blocks are. -/
lemma walking_elseBlock (hblock : ∀ words, Walking (block words)) :
    Walking (elseBlock block) := by
  refine (walking_takeKeyword _).bind fun isElse => ?_
  cases isElse with
  | true => exact hblock _
  | false => exact walking_pure _

/-- A statement behind a reserved word begins with that word, which it takes. -/
lemma stepping_keywordStatement (hexpr : Walking expr) (hblock : ∀ words, Walking (block words))
    (word : String) : Stepping (keywordStatement expr block word) := by
  unfold keywordStatement
  split
  · refine stepping_advance_bind fun _ => (walking_look _).bind fun isName => ?_
    cases isName with
    | false => exact walking_giveUp _
    | true =>
      exact walking_advance.bind fun _ => walking_parameterList.bind fun _ =>
        (hblock _).bind fun _ => walking_closedBy _ _ _
  split
  · refine stepping_advance_bind fun _ =>
      (walking_fuelled walking_nameListWithin).bind fun names => ?_
    split
    · exact walking_giveUp _
    · exact walking_pure _
  split
  · exact stepping_advance_bind fun _ =>
      (walking_fuelled walking_nameListWithin).bind fun _ => walking_pure _
  split
  · exact stepping_advance_bind fun _ => walking_pure _
  split
  · exact stepping_advance_bind fun _ => (walking_condition hexpr).bind fun _ =>
      (hblock _).bind fun _ => (walking_elseBlock hblock).bind fun _ => walking_closedBy _ _ _
  split
  · refine stepping_advance_bind fun _ => hexpr.bind fun selector => ?_
    cases selector with
    | none => exact walking_giveUp _
    | some selector =>
      exact (walking_manyUntil (stepping_switchItem hexpr hblock).walking).bind fun _ =>
        walking_closedBy _ _ _
  split
  · exact stepping_advance_bind fun _ => (walking_condition hexpr).bind fun _ =>
      (hblock _).bind fun _ => walking_closedBy _ _ _
  split
  · refine stepping_advance_bind fun _ => (walking_look _).bind fun hasValue => ?_
    cases hasValue with
    | true => exact hexpr.bind fun _ => walking_pure _
    | false => exact walking_pure _
  · exact stepping_report_bind (stepping_advance_bind fun _ => walking_pure _)

/-- One level of statements: whatever begins a statement is taken. -/
lemma stepping_statementWith (hexpr : Walking expr) (hblock : ∀ words, Walking (block words)) :
    Stepping (statementWith expr block) := by
  refine stepping_look_bind fun token => ?_
  split
  · exact stepping_keywordStatement hexpr hblock _
  · refine stepping_look_bind fun isAssignment => ?_
    cases isAssignment with
    | true =>
      refine stepping_advance_bind fun _ => walking_advance.bind fun _ => hexpr.bind fun value => ?_
      cases value with
      | none => exact walking_giveUp _
      | some value => exact walking_pure _
    | false =>
      refine stepping_advance_bind fun _ => (walking_takeSymbol _).bind fun opening => ?_
      cases opening with
      | false => exact walking_giveUp _
      | true =>
        refine (walking_fuelled (walking_statementArgumentsWithin hexpr)).bind fun args =>
          (walking_takeSymbol _).bind fun closing => ?_
        cases closing with
        | true => exact walking_pure _
        | false => exact walking_giveUp _
  · exact stepping_advance_bind fun _ => walking_pure _
  · exact stepping_report_bind (stepping_advance_bind fun _ => walking_pure _)

end Statements

/-- **A statement takes a token**, and its parser does nothing but walk. -/
lemma stepping_statement (room : Nat) : Stepping (statement room) := by
  induction room with
  | zero =>
    exact stepping_statementWith (walking_expression 0) fun words =>
      (walking_report _).bind fun _ => (walking_skipBlock words).bind fun _ => walking_pure _
  | succ room ih =>
    exact stepping_statementWith (walking_expression (room + 1)) fun _ =>
      walking_manyUntil ih.walking

/-- A block is a walk, also where it lies too deep and is passed over. -/
lemma walking_block (room : Nat) (words : List String) : Walking (block room words) := by
  cases room with
  | zero =>
    exact (walking_report _).bind fun _ => (walking_skipBlock words).bind fun _ => walking_pure _
  | succ room => exact walking_manyUntil (stepping_statement room).walking

/-- The parser of programs does nothing but walk. -/
lemma walking_program : Walking program :=
  walking_manyUntil (stepping_statement nestingLimit).walking

/-! ## Fuel -/

section Fuel

variable {stop : Cursor → Bool} {item : Parser (Option α)} {fuel fuel' : Nat} {c : Cursor}

/-- A repetition ends where it has to stop. -/
lemma manyWithin_of_stop (h : (c.atEnd || stop c) = true) :
    manyWithin stop item fuel c = ⟨[], [], c⟩ := by
  cases fuel with
  | zero => rfl
  | succ fuel =>
    rw [manyWithin, look_bind_apply, if_pos h]
    rfl

/-- A repetition that does not stop goes on behind an item. -/
lemma manyWithin_of_go (h : (c.atEnd || stop c) = false) :
    manyWithin stop item (fuel + 1) c =
      ⟨(item c).value.toList ++ (manyWithin stop item fuel (item c).rest).value,
        (item c).errors ++ (manyWithin stop item fuel (item c).rest).errors,
        (manyWithin stop item fuel (item c).rest).rest⟩ := by
  rw [manyWithin, look_bind_apply, if_neg (by simp [h])]
  simp only [bind, pure, List.append_nil]

/-- **More fuel changes nothing**: a repetition of something that takes a token needs no more rounds
than there are tokens. -/
lemma manyWithin_eq_of_le (hitem : Stepping item) (h : c.tokens.length ≤ fuel)
    (h' : c.tokens.length ≤ fuel') :
    manyWithin stop item fuel c = manyWithin stop item fuel' c := by
  induction fuel generalizing fuel' c with
  | zero =>
    have hnil : c.tokens = [] := List.length_eq_zero_iff.mp (by omega)
    have hend : (c.atEnd || stop c) = true := by simp [Cursor.atEnd, hnil]
    rw [manyWithin_of_stop hend, manyWithin_of_stop hend]
  | succ fuel ih =>
    cases hend : c.atEnd || stop c with
    | true => rw [manyWithin_of_stop hend, manyWithin_of_stop hend]
    | false =>
      have hne : c.tokens ≠ [] := by
        intro hnil
        simp [Cursor.atEnd, hnil] at hend
      have hpos := List.length_pos_iff.mpr hne
      obtain ⟨fuel', rfl⟩ : ∃ n, fuel' = n + 1 := ⟨fuel' - 1, by omega⟩
      have hshort := hitem.length_lt hne
      have hlater : manyWithin stop item fuel (item c).rest =
          manyWithin stop item fuel' (item c).rest := ih (by omega) (by omega)
      rw [manyWithin_of_go hend, manyWithin_of_go hend, hlater]

/-- A repetition ends where it has to stop. -/
lemma manyUntil_of_stop (h : (c.atEnd || stop c) = true) :
    manyUntil stop item c = ⟨[], [], c⟩ :=
  manyWithin_of_stop h

/-- **A repetition that does not stop goes on behind an item** as if it had just begun there. -/
lemma manyUntil_of_go (hitem : Stepping item) (h : (c.atEnd || stop c) = false) :
    manyUntil stop item c =
      ⟨(item c).value.toList ++ (manyUntil stop item (item c).rest).value,
        (item c).errors ++ (manyUntil stop item (item c).rest).errors,
        (manyUntil stop item (item c).rest).rest⟩ := by
  have hne : c.tokens ≠ [] := by
    intro hnil
    simp [Cursor.atEnd, hnil] at h
  have hshort := hitem.length_lt hne
  obtain ⟨fuel, hfuel⟩ : ∃ fuel, c.tokens.length = fuel + 1 := ⟨c.tokens.length - 1, by omega⟩
  have hround : manyUntil stop item c = manyWithin stop item (fuel + 1) c := by
    rw [← hfuel]
    rfl
  have hlater : manyWithin stop item fuel (item c).rest = manyUntil stop item (item c).rest :=
    manyWithin_eq_of_le hitem (by omega) (Nat.le_refl _)
  rw [hround, manyWithin_of_go h, hlater]

end Fuel

end Parser

end DialogueScript
