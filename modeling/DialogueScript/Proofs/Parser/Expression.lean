import DialogueScript.Proofs.Parser.Grammar

set_option autoImplicit false

/-!
# Parsing expressions

With some room for nesting the parser of expressions recognizes exactly the expressions of the
grammar that fit into the room, and so does the parser of conditions.

The parser is recursive in the room, the grammar in the structure of what is read. The two meet
level by level: without room the parser reports every call, and the grammar has none that fits;
with room a call takes one place, and its arguments fit into what remains.

## Main definitions

* `DialogueScript.Grammar.ExpressionWithin`, `DialogueScript.Grammar.ComparisonWithin` — the
  expressions and conditions that fit into some room.

## Main results

* `DialogueScript.Parser.recognizes_expression` — expressions.
* `DialogueScript.Parser.recognizes_condition` — conditions.
-/

namespace DialogueScript

namespace Grammar

/-! ## What fits into some room -/

/-- An expression that fits into the room. -/
def ExpressionWithin (room : Nat) : Reading Expr :=
  fun ts e rest => Expression ts e rest ∧ e.nesting ≤ room

/-- A condition that fits into the room. -/
def ComparisonWithin (room : Nat) : Reading Condition :=
  fun ts condition rest => Comparison ts condition rest ∧ condition.nesting ≤ room

/-- An expression takes a token. -/
lemma ExpressionWithin.takes {room : Nat} : (ExpressionWithin room).Takes :=
  fun h => h.1.length_lt

/-- No expression begins with a symbol. -/
lemma ExpressionWithin.not_isSymbol {room : Nat} {symbol : String} {t : Token}
    {ts rest : List Token} {e : Expr} (h : ExpressionWithin room (t :: ts) e rest) :
    t.isSymbol symbol = false := by
  have hbegins := h.1.begins
  cases hkind : t.kind <;> simp_all [beginsExpression, Token.isSymbol]

/-- Expressions with commas fit into the room if each of them does. -/
lemma separated_within_iff {room : Nat} {ts rest : List Token} {es : List Expr} :
    (ExpressionWithin room).Separated ts es rest ↔
      Reading.Separated Expression ts es rest ∧ Expr.listNesting es ≤ room := by
  constructor
  · intro h
    induction h with
    | nil => exact ⟨.nil, Nat.zero_le _⟩
    | last ha => exact ⟨.last ha.1, by simpa [Expr.listNesting] using ha.2⟩
    | more ha hcomma _ ih =>
      exact ⟨.more ha.1 hcomma ih.1, Nat.max_le.mpr ⟨ha.2, ih.2⟩⟩
  · rintro ⟨h, hroom⟩
    induction h with
    | nil => exact .nil
    | last ha => exact .last ⟨ha, by simpa [Expr.listNesting] using hroom⟩
    | more ha hcomma _ ih =>
      simp only [Expr.listNesting, Nat.max_le] at hroom
      exact .more ⟨ha, hroom.1⟩ hcomma (ih hroom.2)

end Grammar

namespace Parser

open Grammar

/-! ## Expressions -/

/-- The loop over the arguments of a call expression is one over items with commas. -/
lemma commaLoop_arguments {item : Parser (Option Expr)}
    (hsome : ∀ {c c'}, ¬ Accepts item c none c') : CommaLoop item (argumentsWithin item) :=
  .of_round (goOnStrictly .argumentSeparator) hsome rfl (fun _ => rfl)
    (accepts_goOnStrictly_iff .argumentSeparator)

/-- The rest of a call behind its name: arguments with commas, in parentheses. -/
lemma accepts_callArguments_iff {item : Parser (Option Expr)} {reading : Reading Expr}
    (hitem : item.Recognizes reading.option) (htakes : reading.Takes)
    (hhead : ∀ {t ts e rest}, reading (t :: ts) e rest → t.isSymbol ")" = false)
    {name : String} {opening : Token} {ts : List Token} {n : Nat} {r : Option Expr} {c' : Cursor}
    (hopening : opening.isSymbol "(" = true) :
    Accepts (callArguments item name) ⟨opening :: ts, n⟩ r c' ↔
      ∃ args closing rest, reading.Separated ts args (closing :: rest) ∧
        closing.isSymbol ")" = true ∧ r = some (.call name args) ∧ c' = ⟨rest, n⟩ := by
  have hloop : CommaLoop item (argumentsWithin item) :=
    commaLoop_arguments hitem.not_accepts_none
  rw [callArguments, accepts_takeSymbol_bind, if_pos (by simpa using hopening),
    Cursor.advance_mk, List.tail_cons, hloop.closed_iff hitem htakes hhead (by simp)]
  simp only [if_true, accepts_pure]

/-- An expression is a literal, a variable, or a name with the rest of a call behind it. -/
lemma accepts_expressionWith_iff {call : String → Parser (Option Expr)} {t : Token}
    {ts : List Token} {n : Nat} {r : Option Expr} {c' : Cursor} :
    Accepts (expressionWith call) ⟨t :: ts, n⟩ r c' ↔
      (∃ kind : LiteralKind, t.kind = kind.tokenKind ∧ r = some (.literal kind t.text) ∧
          c' = ⟨ts, n⟩) ∨
        t.kind = .identifier ∧
          if (⟨t :: ts, n⟩ : Cursor).nextIsSymbol "(" = true then Accepts (call t.text) ⟨ts, n⟩ r c'
          else r = some (.var t.text) ∧ c' = ⟨ts, n⟩ := by
  have hkinds : ∀ {P : LiteralKind → Prop},
      (∃ kind, P kind) ↔ P .string ∨ P .number ∨ P .boolean := by
    intro P
    constructor
    · rintro ⟨kind, h⟩
      cases kind with
      | string => exact .inl h
      | number => exact .inr (.inl h)
      | boolean => exact .inr (.inr h)
    · rintro (h | h | h)
      · exact ⟨_, h⟩
      · exact ⟨_, h⟩
      · exact ⟨_, h⟩
  cases hkind : t.kind <;> simp [expressionWith, hkind, hkinds, LiteralKind.tokenKind]

/-- One level of expressions: if the rest of a call is recognized as far as it fits into the room,
so are expressions. -/
lemma recognizes_expressionWith {call : String → Parser (Option Expr)} {room : Nat}
    (hcall : ∀ {name opening ts n r c'}, opening.isSymbol "(" = true →
      (Accepts (call name) ⟨opening :: ts, n⟩ r c' ↔
        ∃ args closing rest, Reading.Separated Expression ts args (closing :: rest) ∧
          Expr.listNesting args < room ∧ closing.isSymbol ")" = true ∧
          r = some (.call name args) ∧ c' = ⟨rest, n⟩)) :
    (expressionWith call).Recognizes (ExpressionWithin room).option := by
  intro ts n r c'
  cases ts with
  | nil =>
    constructor
    · intro h
      simp [expressionWith] at h
    · rintro ⟨rest, -, e, -, he, -⟩
      exact absurd he.length_lt (by simp)
  | cons t ts =>
    rw [accepts_expressionWith_iff]
    constructor
    · rintro (⟨kind, hkind, rfl, rfl⟩ | ⟨hname, h⟩)
      · refine ⟨ts, rfl, _, rfl, ?_, Nat.zero_le _⟩
        cases kind with
        | string => exact .string hkind
        | number => exact .number hkind
        | boolean => exact .boolean hkind
      · cases ts with
        | nil =>
          obtain ⟨rfl, rfl⟩ : r = some (.var t.text) ∧ c' = ⟨[], n⟩ := by simpa using h
          exact ⟨[], rfl, _, rfl, .var hname (by simp), Nat.zero_le _⟩
        | cons opening ts =>
          rw [Cursor.nextIsSymbol_cons_cons] at h
          split at h
          · rename_i hopening
            obtain ⟨args, closing, rest, hargs, hroom, hclosing, rfl, rfl⟩ :=
              (hcall hopening).mp h
            exact ⟨rest, rfl, _, rfl, .call hname hopening hargs hclosing, hroom⟩
          · rename_i hopening
            obtain ⟨rfl, rfl⟩ := h
            exact ⟨_, rfl, _, rfl, .var hname (by simpa using hopening), Nat.zero_le _⟩
    · rintro ⟨rest, rfl, e, rfl, he, hroom⟩
      cases he with
      | string ht => exact .inl ⟨.string, ht, rfl, rfl⟩
      | number ht => exact .inl ⟨.number, ht, rfl, rfl⟩
      | boolean ht => exact .inl ⟨.boolean, ht, rfl, rfl⟩
      | var hname hrest =>
        refine .inr ⟨hname, ?_⟩
        cases ts with
        | nil => simp
        | cons u ts =>
          have hu : u.isSymbol "(" = false := hrest u rfl
          simp [hu]
      | call hname hopening hargs hclosing =>
        refine .inr ⟨hname, ?_⟩
        rw [Cursor.nextIsSymbol_cons_cons, if_pos hopening]
        exact (hcall hopening).mpr ⟨_, _, _, hargs, hroom, hclosing, rfl, rfl⟩

/-- **Expressions**: with some room the parser recognizes the expressions that fit into it.

**Proof sketch.** Induction on the room. Without room the parser reports every call, and the
grammar has no call that fits. With room a call takes one place, and its arguments are expressions
that fit into what remains. -/
theorem recognizes_expression (room : Nat) :
    (expression room).Recognizes (ExpressionWithin room).option := by
  induction room with
  | zero =>
    refine recognizes_expressionWith fun _ => ?_
    simp [callTooDeep]
  | succ room ih =>
    refine recognizes_expressionWith fun hopening => ?_
    rw [accepts_callArguments_iff ih ExpressionWithin.takes ExpressionWithin.not_isSymbol hopening]
    simp only [separated_within_iff, and_assoc, Nat.lt_succ_iff]

/-! ## Conditions -/

/-- With some room the parser recognizes the conditions that fit into it. -/
lemma recognizes_condition (room : Nat) :
    (condition (expression room)).Recognizes (ComparisonWithin room) := by
  intro ts n a c'
  simp only [condition, (recognizes_expression room).option_bind_iff]
  constructor
  · rintro ⟨left, mid, hleft, h⟩
    rw [accepts_requireSymbol_iff (by simp)] at h
    obtain ⟨equals, mid, rfl, hequals, h⟩ := h
    simp only [if_true, (recognizes_expression room).option_bind_iff, accepts_pure] at h
    obtain ⟨right, rest, hright, rfl, rfl⟩ := h
    exact ⟨rest, rfl, ⟨hleft.1, hequals, hright.1⟩, Nat.max_le.mpr ⟨hleft.2, hright.2⟩⟩
  · rintro ⟨rest, rfl, ⟨hleft, hequals, hright⟩, hroom⟩
    obtain ⟨hroomLeft, hroomRight⟩ := Nat.max_le.mp hroom
    refine ⟨_, _, ⟨hleft, hroomLeft⟩, ?_⟩
    rw [accepts_requireSymbol_iff (by simp)]
    refine ⟨_, _, rfl, hequals, ?_⟩
    simp only [if_true, (recognizes_expression room).option_bind_iff, accepts_pure]
    exact ⟨_, _, ⟨hright, hroomRight⟩, rfl, rfl⟩

end Parser

end DialogueScript
