import DialogueScript.Proofs.Parser.Machine
import DialogueScript.Proofs.Parser.Walk

set_option autoImplicit false

/-!
# Following a parser

The parsing machine takes the steps of the parser on cursors. Its position stands for the tokens
ahead, its depth for the room that is left, and its reports are the earlier ones and then those of
the parser. So it inherits what the parser has by its type: every run ends, no token is read that is
not there, and the depth is counted down as often as up.

This module has the relation between the two and one rule for each way to build a step: looking,
taking a token, reporting, counting the depth, passing over, and three kinds of loops.

## Main definitions

* `DialogueScript.Machine.stop` — the number of the token that ends the input.
* `DialogueScript.Machine.Moves` — what a machine can do.
* `DialogueScript.Machine.Gives` — with enough fuel, a step gives a result.
* `DialogueScript.Machine.Follows` — from one state, a step of the machine gives what a parser gives
  from the tokens ahead.
* `DialogueScript.Machine.Implements`, `DialogueScript.Machine.Taking` — the same from every state
  inside the input, and for steps that begin by taking a token.

## Main results

* `DialogueScript.Machine.Moves.position_le` — the machine never goes back and never past the end.
* `DialogueScript.Machine.implements_limited` — the depth is the same afterwards.
* `DialogueScript.Machine.follows_skip`, `DialogueScript.Machine.implements_manyUntil`,
  `DialogueScript.Machine.implements_list` — loops.
-/

namespace DialogueScript

namespace Machine

variable {tokens : List Token} {α β : Type} {m m' : Machine} {depth : Nat}

/-! ## Positions and cursors -/

/-- The number of the token that ends the input: the first end token, or behind the last token. -/
def stop (tokens : List Token) : Nat :=
  tokens.findIdx fun token => token.kind == .eof

/-- The tokens ahead of a machine. -/
def cursor (tokens : List Token) (m : Machine) : Cursor :=
  ⟨(tokens.take (stop tokens)).drop m.position, Cursor.endLineOf tokens⟩

/-- The token that a machine looks at. -/
def seen (tokens : List Token) (m : Machine) : Token :=
  tokens[m.position]?.getD
    (Token.endOfInput ((tokens.getLast?.map fun token => token.line).getD 1))

/-- The end is not behind the list. -/
lemma stop_le_length (tokens : List Token) : stop tokens ≤ tokens.length :=
  List.findIdx_le_length

/-- At the beginning all tokens up to the end are ahead. -/
lemma cursor_start (tokens : List Token) : start.cursor tokens = Cursor.start tokens := by
  have hends : (fun token : Token => !(token.kind != .eof)) = fun token => token.kind == .eof := by
    funext token
    exact Bool.not_not _
  rw [cursor, Cursor.start, List.takeWhile_eq_take_findIdx_not, hends]
  rfl

/-- As many tokens are ahead as there are up to the one that ends the input. -/
lemma length_cursor (tokens : List Token) (m : Machine) :
    (m.cursor tokens).tokens.length = stop tokens - m.position := by
  rw [cursor, List.length_drop, List.length_take, Nat.min_eq_left (stop_le_length tokens)]

/-- Before the end, a machine looks at the first of the tokens ahead. -/
lemma cursor_of_lt (h : m.position < stop tokens) :
    (m.cursor tokens).tokens =
        m.seen tokens :: (tokens.take (stop tokens)).drop (m.position + 1) ∧
      (m.seen tokens).kind ≠ .eof := by
  have hlength : m.position < tokens.length := Nat.lt_of_lt_of_le h (stop_le_length tokens)
  have hseen : m.seen tokens = tokens[m.position] := by
    rw [seen, List.getElem?_eq_getElem hlength, Option.getD_some]
  have htake : m.position < (tokens.take (stop tokens)).length := by
    rw [List.length_take]
    omega
  refine ⟨?_, ?_⟩
  · rw [cursor, List.drop_eq_getElem_cons htake, List.getElem_take, hseen]
  · have hkind : ¬((tokens[m.position].kind == .eof) = true) := by
      simpa using List.not_of_lt_findIdx h
    rw [hseen]
    exact fun heof => hkind (beq_iff_eq.mpr heof)

/-- At the end it looks at an end token. -/
lemma cursor_of_eq (h : m.position = stop tokens) :
    (m.cursor tokens).tokens = [] ∧ (m.seen tokens).kind = .eof ∧
      (m.seen tokens).line = Cursor.endLineOf tokens := by
  refine ⟨?_, ?_⟩
  · rw [← List.length_eq_zero_iff, length_cursor, h, Nat.sub_self]
  · rw [seen, Cursor.endLineOf, h, stop, ← List.find?_eq_getElem?_findIdx]
    cases hfind : tokens.find? fun token => token.kind == .eof with
    | some token =>
      have hends := List.find?_some hfind
      exact ⟨beq_iff_eq.mp hends, rfl⟩
    | none =>
      refine ⟨rfl, ?_⟩
      cases tokens.getLast? <;> rfl

/-- Before the end, the parser looks at the same token. -/
lemma token_at_of_lt (h : m.position < stop tokens) :
    (m.cursor tokens).peek = m.seen tokens ∧ (m.cursor tokens).atEnd = false := by
  rw [Cursor.peek, Cursor.atEnd, (cursor_of_lt h).1]
  exact ⟨rfl, rfl⟩

/-- At the end, the parser looks at an end token on the same line. -/
lemma token_at_of_eq (h : m.position = stop tokens) :
    (m.cursor tokens).peek = Token.endOfInput (m.seen tokens).line ∧
      (m.cursor tokens).atEnd = true := by
  obtain ⟨hnil, -, hline⟩ := cursor_of_eq h
  rw [Cursor.peek, Cursor.atEnd, hnil, hline]
  exact ⟨rfl, rfl⟩

/-! ## What a machine can do -/

/-- A step and then another. -/
lemma bind_of_eq {step : MachineM α} {f : α → MachineM β} {a : α} (h : step m = some (a, m')) :
    (step >>= f) m = f a m' := by
  change (step m).bind (fun result => f result.1 result.2) = f a m'
  rw [h, Option.bind_some]

/-- Looking changes nothing. -/
lemma peek_apply (tokens : List Token) (m : Machine) :
    peek tokens m = some (m.seen tokens, m) := rfl

/-- The end of the input is told by the kind of the token that the machine looks at. -/
lemma atEnd_apply (tokens : List Token) (m : Machine) :
    atEnd tokens m = some ((m.seen tokens).kind == .eof, m) := rfl

/-- At the end, the machine sees that the input has ended. -/
lemma atEnd_of_eq (h : m.position = stop tokens) : atEnd tokens m = some (true, m) := by
  rw [atEnd_apply, (cursor_of_eq h).2.1]
  rfl

/-- Before the end, the machine sees that it has not. -/
lemma atEnd_of_lt (h : m.position < stop tokens) : atEnd tokens m = some (false, m) := by
  rw [atEnd_apply, beq_eq_false_iff_ne.mpr (cursor_of_lt h).2]

/-- Before the end, the token that a machine looks at is taken. -/
lemma advance_of_lt (h : m.position < stop tokens) :
    advance tokens m = some (m.seen tokens, { m with position := m.position + 1 }) := by
  have hget : tokens[m.position]? = some (m.seen tokens) := by
    have hlength : m.position < tokens.length := Nat.lt_of_lt_of_le h (stop_le_length tokens)
    rw [seen, List.getElem?_eq_getElem hlength, Option.getD_some]
  rw [advance, bind_of_eq (atEnd_of_lt h), if_neg Bool.false_ne_true]
  change tokens[m.position]?.bind (fun token => some (token, _)) = _
  rw [hget]
  rfl

/-- **The token taken last can be read back**, since it stands before the end. -/
lemma exists_previous (hinside : m.position ≤ stop tokens) :
    ∃ token, previous tokens m = some (token, m) := by
  obtain ⟨position, depth, errors⟩ := m
  cases position with
  | zero => exact ⟨_, rfl⟩
  | succ k =>
    have hlength : k < tokens.length :=
      Nat.lt_of_lt_of_le (Nat.lt_of_succ_le hinside) (stop_le_length tokens)
    refine ⟨tokens[k], ?_⟩
    change tokens[k]?.bind (fun token => some (token, _)) = _
    rw [List.getElem?_eq_getElem hlength]
    rfl

/-- At the end nothing is taken. -/
lemma advance_of_eq (h : m.position = stop tokens) :
    ∃ token, advance tokens m = some (token, m) := by
  rw [advance, bind_of_eq (atEnd_of_eq h), if_pos rfl]
  exact exists_previous (Nat.le_of_eq h)

/-- Taking a token leaves all but the position as it is. -/
lemma eq_of_advance {token : Token} (hinside : m.position ≤ stop tokens)
    (h : advance tokens m = some (token, m')) :
    m' = m ∨ m.position < stop tokens ∧ m' = { m with position := m.position + 1 } := by
  rcases Nat.lt_or_eq_of_le hinside with hlt | heq
  · rw [advance_of_lt hlt] at h
    cases h
    exact .inr ⟨hlt, rfl⟩
  · obtain ⟨last, hlast⟩ := advance_of_eq heq
    rw [hlast] at h
    cases h
    exact .inl rfl

/-- What a machine can do, from a state to a later one. -/
inductive Moves (tokens : List Token) : Machine → Machine → Prop
  /-- Nothing. -/
  | refl {m : Machine} : Moves tokens m m
  /-- One thing and then another. -/
  | trans {m mid m' : Machine} (hfirst : Moves tokens m mid) (hsecond : Moves tokens mid m') :
      Moves tokens m m'
  /-- Take a token, unless the input has ended. -/
  | advance {m m' : Machine} {token : Token} (h : Machine.advance tokens m = some (token, m')) :
      Moves tokens m m'
  /-- Report a fault. -/
  | report {m : Machine} (error : ParseError) :
      Moves tokens m { m with errors := m.errors ++ [error] }
  /-- Count a block or a call. -/
  | deeper {m : Machine} : Moves tokens m { m with depth := m.depth + 1 }
  /-- The block or the call is beyond. -/
  | shallower {m : Machine} : Moves tokens m { m with depth := m.depth - 1 }

namespace Moves

/-- **The machine never goes back**, and never past the end. -/
lemma position_le (h : Moves tokens m m') (hinside : m.position ≤ stop tokens) :
    m.position ≤ m'.position ∧ m'.position ≤ stop tokens := by
  induction h with
  | refl => exact ⟨Nat.le_refl _, hinside⟩
  | trans _ _ ihfirst ihsecond =>
    obtain ⟨hfirst, hmid⟩ := ihfirst hinside
    obtain ⟨hsecond, hlast⟩ := ihsecond hmid
    exact ⟨Nat.le_trans hfirst hsecond, hlast⟩
  | advance hadvance =>
    obtain rfl | ⟨hlt, rfl⟩ := eq_of_advance hinside hadvance
    · exact ⟨Nat.le_refl _, hinside⟩
    · exact ⟨Nat.le_succ _, hlt⟩
  | report _ => exact ⟨Nat.le_refl _, hinside⟩
  | deeper => exact ⟨Nat.le_refl _, hinside⟩
  | shallower => exact ⟨Nat.le_refl _, hinside⟩

/-- **The machine only adds reports.** -/
lemma errors_prefix (h : Moves tokens m m') (hinside : m.position ≤ stop tokens) :
    m.errors <+: m'.errors := by
  induction h with
  | refl => exact List.prefix_rfl
  | trans hfirst _ ihfirst ihsecond =>
    exact (ihfirst hinside).trans (ihsecond (hfirst.position_le hinside).2)
  | advance hadvance =>
    obtain rfl | ⟨-, rfl⟩ := eq_of_advance hinside hadvance <;> exact List.prefix_rfl
  | report _ => exact List.prefix_append _ _
  | deeper => exact List.prefix_rfl
  | shallower => exact List.prefix_rfl

end Moves

/-! ## Following a parser -/

/-- With enough fuel, a step of the machine gives a result. -/
def Gives (step : Nat → MachineM α) (m : Machine) (a : α) (m' : Machine) : Prop :=
  ∃ enough, ∀ fuel, enough ≤ fuel → step fuel m = some (a, m')

/-- Two states of a machine, and what a parser has reported and left between them. -/
structure Agrees (tokens : List Token) (m m' : Machine) (errors : List ParseError)
    (rest : Cursor) : Prop where
  /-- The machine has only moved. -/
  moves : Moves tokens m m'
  /-- It looks at the tokens that the parser has left. -/
  cursor : m'.cursor tokens = rest
  /-- It is as deep as before. -/
  depth : m'.depth = m.depth
  /-- The reports of the parser are added. -/
  errors : m'.errors = m.errors ++ errors

/-- From a state, a step of the machine gives what a parser gives from the tokens ahead. -/
def Follows (tokens : List Token) (step : Nat → MachineM α) (p : Parser α) (m : Machine) : Prop :=
  ∃ m', Gives step m (p (m.cursor tokens)).value m' ∧
    Agrees tokens m m' (p (m.cursor tokens)).errors (p (m.cursor tokens)).rest

/-- From every state inside the input that is so deep, a step of the machine follows a parser. -/
def Implements (tokens : List Token) (depth : Nat) (step : Nat → MachineM α) (p : Parser α) :
    Prop :=
  ∀ m : Machine, m.position ≤ stop tokens → m.depth = depth → Follows tokens step p m

/-- From every state before the end that is so deep, a step of the machine follows a parser. -/
def Begins (tokens : List Token) (depth : Nat) (step : Nat → MachineM α) (p : Parser α) : Prop :=
  ∀ m : Machine, m.position < stop tokens → m.depth = depth → Follows tokens step p m

/-- A step takes a token and, whichever that is, goes on like a parser that has taken one. -/
def Taking (tokens : List Token) (depth : Nat) (step : Nat → MachineM α) (p : Parser α) : Prop :=
  ∃ (rest : Nat → Token → MachineM α) (q : Token → Parser α),
    (∀ fuel, step fuel = advance tokens >>= rest fuel) ∧ p = Parser.advance >>= q ∧
      ∀ token, Implements tokens depth (fun fuel => rest fuel token) (q token)

section Rules

variable {step : Nat → MachineM α} {p : Parser α} {f : Nat → α → MachineM β} {g : α → Parser β}

/-- A step without loops needs no fuel. -/
lemma gives_of_eq {step : MachineM α} {a : α} (h : step m = some (a, m')) :
    Gives (fun _ => step) m a m' :=
  ⟨0, fun _ _ => h⟩

/-- Two results of a step are the same: the greater fuel gives both. -/
lemma Gives.unique {a b : α} {first second : Machine} (h : Gives step m a first)
    (h' : Gives step m b second) : a = b ∧ first = second := by
  obtain ⟨enough, henough⟩ := h
  obtain ⟨enough', henough'⟩ := h'
  have hfirst := henough (max enough enough') (Nat.le_max_left _ _)
  have hsecond := henough' (max enough enough') (Nat.le_max_right _ _)
  rw [hfirst] at hsecond
  cases hsecond
  exact ⟨rfl, rfl⟩

/-- One step and then another: the greater fuel is enough for both. -/
lemma Gives.bind {mid : Machine} {a : α} {b : β} (h : Gives step m a mid)
    (hf : Gives (fun fuel => f fuel a) mid b m') :
    Gives (fun fuel => step fuel >>= f fuel) m b m' := by
  obtain ⟨first, hfirst⟩ := h
  obtain ⟨second, hsecond⟩ := hf
  refine ⟨max first second, fun fuel hfuel => ?_⟩
  have hstep := hfirst fuel (Nat.le_trans (Nat.le_max_left _ _) hfuel)
  exact (bind_of_eq hstep).trans (hsecond fuel (Nat.le_trans (Nat.le_max_right _ _) hfuel))

/-- A round or a call uses up one unit of fuel. -/
lemma Gives.of_succ {a : α} (h : Gives (fun fuel => step (fuel + 1)) m a m') :
    Gives step m a m' := by
  obtain ⟨enough, henough⟩ := h
  refine ⟨enough + 1, fun fuel hfuel => ?_⟩
  obtain ⟨fuel, rfl⟩ : ∃ k, fuel = k + 1 := ⟨fuel - 1, by omega⟩
  exact henough fuel (Nat.le_of_succ_le_succ hfuel)

/-- To follow a parser with one unit of fuel put aside is to follow it. -/
lemma Follows.of_succ (h : Follows tokens (fun fuel => step (fuel + 1)) p m) :
    Follows tokens step p m := by
  obtain ⟨m', hgives, hagrees⟩ := h
  exact ⟨m', hgives.of_succ, hagrees⟩

/-- To implement a parser with one unit of fuel put aside is to implement it. -/
lemma Implements.of_succ (h : Implements tokens depth (fun fuel => step (fuel + 1)) p) :
    Implements tokens depth step p :=
  fun m hinside hdepth => (h m hinside hdepth).of_succ

/-- The same, for steps that are only made before the end of the input. -/
lemma Begins.of_succ (h : Begins tokens depth (fun fuel => step (fuel + 1)) p) :
    Begins tokens depth step p :=
  fun m hbefore hdepth => (h m hbefore hdepth).of_succ

/-- Nothing has been done. -/
lemma Agrees.refl (tokens : List Token) (m : Machine) :
    Agrees tokens m m [] (m.cursor tokens) :=
  ⟨.refl, rfl, rfl, (List.append_nil _).symm⟩

/-- Where two stretches agree one after the other, the whole agrees, with the reports of both. -/
lemma Agrees.trans {mid : Machine} {first second : List ParseError} {here there : Cursor}
    (h : Agrees tokens m mid first here) (h' : Agrees tokens mid m' second there) :
    Agrees tokens m m' (first ++ second) there where
  moves := h.moves.trans h'.moves
  cursor := h'.cursor
  depth := h'.depth.trans h.depth
  errors := by rw [h'.errors, h.errors, List.append_assoc]

/-- What follows depends only on the parser's result at the tokens ahead. -/
lemma Follows.congr {q : Parser α} (h : p (m.cursor tokens) = q (m.cursor tokens))
    (hq : Follows tokens step q m) : Follows tokens step p m := by
  rwa [Follows, h]

/-- What implements a parser everywhere does so before the end of the input. -/
lemma Implements.begins (h : Implements tokens depth step p) : Begins tokens depth step p :=
  fun m hm => h m (Nat.le_of_lt hm)

/-- A result that is there at once is the same for both. -/
lemma follows_pure (a : α) : Follows tokens (fun _ => pure a) (pure a : Parser α) m :=
  ⟨m, gives_of_eq rfl, .refl tokens m⟩

/-- A result that is there at once is the same for both, in every state. -/
lemma implements_pure (a : α) :
    Implements tokens depth (fun _ => pure a) (pure a : Parser α) :=
  fun _ _ _ => follows_pure a

/-- **One step and then another**, where the parser and the machine may differ in what the first
gives. -/
lemma follows_bind_of {mid : Machine} {a : α} (hstep : Gives step m a mid)
    (hmid : Agrees tokens m mid (p (m.cursor tokens)).errors (p (m.cursor tokens)).rest)
    (hf : Follows tokens (fun fuel => f fuel a) (g (p (m.cursor tokens)).value) mid) :
    Follows tokens (fun fuel => step fuel >>= f fuel) (p >>= g) m := by
  obtain ⟨m', hm', hagrees⟩ := hf
  rw [hmid.cursor] at hm' hagrees
  exact ⟨m', hstep.bind hm', hmid.trans hagrees⟩

/-- What follows a parser and then, from where that leaves it, another one follows both in a row. -/
lemma Follows.bind (h : Follows tokens step p m)
    (hf : ∀ mid, Agrees tokens m mid (p (m.cursor tokens)).errors (p (m.cursor tokens)).rest →
      Follows tokens (fun fuel => f fuel (p (m.cursor tokens)).value)
        (g (p (m.cursor tokens)).value) mid) :
    Follows tokens (fun fuel => step fuel >>= f fuel) (p >>= g) m := by
  obtain ⟨mid, hstep, hmid⟩ := h
  exact follows_bind_of hstep hmid (hf mid hmid)

/-- What comes second may follow its parser from every state. -/
lemma Follows.andThen (h : Follows tokens step p m) (hinside : m.position ≤ stop tokens)
    (hf : ∀ a, Implements tokens m.depth (fun fuel => f fuel a) (g a)) :
    Follows tokens (fun fuel => step fuel >>= f fuel) (p >>= g) m :=
  h.bind fun mid hmid => hf _ mid (hmid.moves.position_le hinside).2 hmid.depth

/-- Implementations one after the other implement parsers one after the other. -/
lemma Implements.bind (h : Implements tokens depth step p)
    (hf : ∀ a, Implements tokens depth (fun fuel => f fuel a) (g a)) :
    Implements tokens depth (fun fuel => step fuel >>= f fuel) (p >>= g) := by
  rintro m hinside rfl
  exact (h m hinside rfl).andThen hinside hf

/-! ## Looking -/

/-- Inside the input, a question to the machine is answered from the tokens ahead. -/
def Answers (tokens : List Token) (question : MachineM α) (answer : Cursor → α) : Prop :=
  ∀ m : Machine, m.position ≤ stop tokens →
    question m = some (answer (m.cursor tokens), m)

/-- A question that is answered from the tokens ahead implements looking at them. -/
lemma Answers.implements {question : MachineM α} {answer : Cursor → α}
    (h : Answers tokens question answer) :
    Implements tokens depth (fun _ => question) (Parser.look answer) :=
  fun m hinside _ => ⟨m, gives_of_eq (h m hinside), .refl tokens m⟩

/-- A question and what follows from its answer. -/
lemma Answers.follows_bind {question : MachineM α} {answer : Cursor → α}
    (h : Answers tokens question answer) (hinside : m.position ≤ stop tokens)
    (hf : Follows tokens (fun fuel => f fuel (answer (m.cursor tokens)))
      (g (answer (m.cursor tokens))) m) :
    Follows tokens (fun fuel => question >>= f fuel) (Parser.look answer >>= g) m :=
  follows_bind_of (gives_of_eq (h m hinside)) (.refl tokens m) hf

/-- The machine asks something, and the parser does not. -/
lemma follows_ask {question : MachineM α} {f : Nat → α → MachineM β} {q : Parser β} {a : α}
    (hask : question m = some (a, m)) (hf : Follows tokens (fun fuel => f fuel a) q m) :
    Follows tokens (fun fuel => question >>= f fuel) q m := by
  obtain ⟨m', hgives, hagrees⟩ := hf
  exact ⟨m', (gives_of_eq hask).bind hgives, hagrees⟩

/-- Either branch of a choice of the machine. -/
lemma follows_ite {condition : Prop} [Decidable condition] {here there : Nat → MachineM α}
    (hhere : condition → Follows tokens here p m)
    (hthere : ¬condition → Follows tokens there p m) :
    Follows tokens (fun fuel => if condition then here fuel else there fuel) p m := by
  by_cases h : condition
  · simp only [if_pos h]
    exact hhere h
  · simp only [if_neg h]
    exact hthere h

/-- A question about the end and the token there is answered from the tokens ahead, if it has the
same answer for every end token. -/
lemma answers_token (ask : Bool → Token → α)
    (hask : ∀ token, token.kind = .eof → ask true token = ask true (Token.endOfInput token.line)) :
    Answers tokens
      (atEnd tokens >>= fun ended => peek tokens >>= fun token => pure (ask ended token))
      fun c => ask c.atEnd c.peek := by
  intro m hinside
  change some (ask ((m.seen tokens).kind == .eof) (m.seen tokens), m) =
    some (ask (m.cursor tokens).atEnd (m.cursor tokens).peek, m)
  rcases Nat.lt_or_eq_of_le hinside with hlt | heq
  · have hahead := beq_eq_false_iff_ne.mpr (cursor_of_lt hlt).2
    rw [(token_at_of_lt hlt).1, (token_at_of_lt hlt).2, hahead]
  · have hend := (cursor_of_eq heq).2.1
    rw [(token_at_of_eq heq).1, (token_at_of_eq heq).2, beq_iff_eq.mpr hend, hask _ hend]

/-- Whether the input has ended is seen from the tokens ahead. -/
lemma answers_atEnd : Answers tokens (atEnd tokens) Cursor.atEnd :=
  answers_token (fun ended _ => ended) fun _ _ => rfl

/-- A question about the token that no end token satisfies. -/
lemma answers_notEnd (ask : Token → Bool) (hask : ∀ token, token.kind = .eof → ask token = false) :
    Answers tokens
      (atEnd tokens >>= fun ended => peek tokens >>= fun token => pure (!ended && ask token))
      fun c => ask c.peek := by
  have hcursor : (fun c : Cursor => ask c.peek) = fun c => !c.atEnd && ask c.peek := by
    funext ⟨ts, n⟩
    cases ts with
    | nil => exact hask _ rfl
    | cons t ts => rfl
  rw [hcursor]
  exact answers_token (fun ended token => !ended && ask token) fun _ _ => rfl

/-- The kind of the token is seen from the tokens ahead. -/
lemma answers_atKind {kind : TokenKind} (hkind : kind ≠ .eof) :
    Answers tokens (atKind tokens kind) fun c => c.peek.kind == kind :=
  answers_notEnd (fun token => token.kind == kind) fun token htoken => by
    rw [htoken]
    exact beq_eq_false_iff_ne.mpr (Ne.symm hkind)

/-- Whether there is a symbol is seen from the tokens ahead. -/
lemma answers_atSymbol (symbol : String) :
    Answers tokens (atSymbol tokens symbol) fun c => c.peek.isSymbol symbol :=
  answers_notEnd (fun token => token.isSymbol symbol) fun token htoken => by
    rw [Token.isSymbol, htoken]
    rfl

/-- Whether there is a reserved word is seen from the tokens ahead. -/
lemma answers_atKeyword (word : String) :
    Answers tokens (atKeyword tokens word) fun c => c.peek.isKeyword word :=
  answers_notEnd (fun token => token.isKeyword word) fun token htoken => by
    rw [Token.isKeyword, htoken]
    rfl

/-- Whether a line goes on is seen from the tokens ahead. -/
lemma answers_atLine (line : Nat) :
    Answers tokens (atLine tokens line) fun c => !c.atEnd && c.peek.line == line :=
  answers_token (fun ended token => !ended && token.line == line) fun _ _ => rfl

/-- Whether a block has to end is seen from the tokens ahead. -/
lemma answers_atBoundary (words : List String) :
    Answers tokens (atBoundary tokens words) fun c => c.atEnd || c.peek.isKeywordIn words :=
  answers_token (fun ended token => ended || token.isKeywordIn words) fun _ _ => rfl

/-- One question or the other. -/
lemma Answers.or {first second : MachineM Bool} {answer answer' : Cursor → Bool}
    (h : Answers tokens first answer) (h' : Answers tokens second answer') :
    Answers tokens (first >>= fun a => second >>= fun b => pure (a || b))
      fun c => answer c || answer' c := by
  intro m hinside
  rw [bind_of_eq (h m hinside), bind_of_eq (h' m hinside)]
  rfl

/-- Whether a list has to end is seen from the tokens ahead. -/
lemma answers_atListEnd :
    Answers tokens (atListEnd tokens) fun c => c.atEnd || c.peek.isSymbol ")" :=
  answers_atEnd.or (answers_atSymbol ")")

/-- Before the end, the token after the next is the one behind the first of the tokens ahead. -/
lemma nextIsSymbol_of_lt (symbol : String) (h : m.position < stop tokens) :
    nextIsSymbol tokens symbol m = some ((m.cursor tokens).nextIsSymbol symbol, m) := by
  let later : Machine := { m with position := m.position + 1 }
  have hlater : (tokens[m.position + 1]?.any fun next => next.isSymbol symbol) =
      (later.seen tokens).isSymbol symbol := by
    rw [seen]
    cases tokens[m.position + 1]? <;> rfl
  have hcursor : (m.cursor tokens).tokens = m.seen tokens :: (later.cursor tokens).tokens :=
    (cursor_of_lt h).1
  change some (tokens[m.position + 1]?.any fun next => next.isSymbol symbol, m) = _
  rw [hlater, Cursor.nextIsSymbol, hcursor]
  rcases Nat.lt_or_eq_of_le (show later.position ≤ stop tokens from h) with hlt | heq
  · rw [(cursor_of_lt hlt).1]
  · obtain ⟨hnil, hend, -⟩ := cursor_of_eq heq
    rw [hnil, Token.isSymbol, hend]
    rfl

/-! ## Taking and reporting -/

/-- Before the end, taking a token leaves the tokens behind it. -/
lemma agrees_advance (h : m.position < stop tokens) :
    Agrees tokens m { m with position := m.position + 1 } [] (m.cursor tokens).advance where
  moves := .advance (advance_of_lt h)
  cursor := by rw [Cursor.advance, (cursor_of_lt h).1]; rfl
  depth := rfl
  errors := (List.append_nil _).symm

/-- At the end, nothing is taken. -/
lemma agrees_stay (h : m.position = stop tokens) :
    Agrees tokens m m [] (m.cursor tokens).advance where
  moves := .refl
  cursor := by
    have hnil := (cursor_of_eq h).1
    rw [Cursor.advance, hnil, List.tail_nil, ← hnil]
  depth := rfl
  errors := (List.append_nil _).symm

/-- Before the end, taking a token gives it. -/
lemma Begins.advance_bind {q : Nat → Token → MachineM β} {q' : Token → Parser β}
    (hq : ∀ token, Implements tokens depth (fun fuel => q fuel token) (q' token)) :
    Begins tokens depth (fun fuel => advance tokens >>= q fuel) (Parser.advance >>= q') := by
  intro m hbefore hdepth
  refine follows_bind_of (gives_of_eq (advance_of_lt hbefore)) (agrees_advance hbefore) ?_
  rw [show (Parser.advance (m.cursor tokens)).value = m.seen tokens from
    (token_at_of_lt hbefore).1]
  exact hq _ _ hbefore hdepth

/-- A step that takes a token is one that is made before the end of the input. -/
lemma Taking.begins (h : Taking tokens depth step p) : Begins tokens depth step p := by
  obtain ⟨rest, q, hstep, rfl, hrest⟩ := h
  obtain rfl : step = fun fuel => advance tokens >>= rest fuel := funext hstep
  exact Begins.advance_bind hrest

/-- Anywhere, a token is taken if there is one. -/
lemma Implements.advance_bind {q : Nat → MachineM β} {q' : Parser β}
    (hq : Implements tokens depth q q') :
    Implements tokens depth (fun fuel => advance tokens >>= fun _ => q fuel)
      (Parser.advance >>= fun _ => q') := by
  intro m hinside hdepth
  rcases Nat.lt_or_eq_of_le hinside with hlt | heq
  · exact Begins.advance_bind (fun _ => hq) m hlt hdepth
  · obtain ⟨token, htoken⟩ := advance_of_eq heq
    exact follows_bind_of (gives_of_eq htoken) (agrees_stay heq) (hq m hinside hdepth)

/-- A report on the line of the next token is the report of the parser. -/
lemma follows_reportAt {line : Nat} (hline : line = (m.cursor tokens).peek.line) (fault : Fault) :
    Follows tokens (fun _ => reportAt line fault) (Parser.report fault) m :=
  ⟨_, gives_of_eq rfl, .report _, rfl, rfl, by rw [hline]; rfl⟩

/-- The line that a machine sees is that of the first of the tokens ahead. -/
lemma line_seen (hinside : m.position ≤ stop tokens) :
    (m.seen tokens).line = (m.cursor tokens).peek.line := by
  rcases Nat.lt_or_eq_of_le hinside with hlt | heq
  · rw [(token_at_of_lt hlt).1]
  · rw [(token_at_of_eq heq).1]
    rfl

/-- The machine reports what the parser reports, on the same line. -/
lemma implements_report (fault : Fault) :
    Implements tokens depth (fun _ => report tokens fault) (Parser.report fault) :=
  fun _ hinside _ => follows_reportAt (line_seen hinside) fault

/-- The machine gives up as the parser does. -/
lemma implements_giveUp (fault : Fault) :
    Implements tokens depth (fun _ => giveUp tokens fault)
      (Parser.giveUp fault : Parser (Option α)) :=
  (implements_report fault).bind fun _ => implements_pure none

/-- The machine takes a symbol where the parser does. -/
lemma implements_takeSymbol (symbol : String) :
    Implements tokens depth (fun _ => takeSymbol tokens symbol) (Parser.takeSymbol symbol) := by
  refine (answers_atSymbol symbol).implements.bind fun found => ?_
  cases found with
  | true => exact (implements_pure true).advance_bind
  | false => exact implements_pure false

/-- The machine takes a reserved word where the parser does. -/
lemma implements_takeKeyword (word : String) :
    Implements tokens depth (fun _ => takeKeyword tokens word) (Parser.takeKeyword word) := by
  refine (answers_atKeyword word).implements.bind fun found => ?_
  cases found with
  | true => exact (implements_pure true).advance_bind
  | false => exact implements_pure false

/-! ## Counting the depth -/

/-- **The depth is counted down as often as up**: where a step one deeper follows a parser, so does
the step with the counting around it. -/
lemma follows_nested (h : Follows tokens step p { m with depth := m.depth + 1 }) :
    Follows tokens
      (fun fuel => deeper >>= fun _ => step fuel >>= fun a => shallower >>= fun _ => pure a)
      p m := by
  obtain ⟨mid, hstep, hmid⟩ := h
  have hdeeper : Gives (fun _ => deeper) m () { m with depth := m.depth + 1 } := gives_of_eq rfl
  have hshallower : Gives (fun _ => shallower) mid () { mid with depth := mid.depth - 1 } :=
    gives_of_eq rfl
  refine ⟨{ mid with depth := mid.depth - 1 },
    hdeeper.bind (hstep.bind (hshallower.bind (gives_of_eq rfl))), ?_⟩
  exact {
    moves := (Moves.deeper.trans hmid.moves).trans .shallower
    cursor := hmid.cursor
    depth := by rw [hmid.depth, Nat.add_sub_cancel]
    errors := hmid.errors }

/-- Where the nesting is limited, the machine does one thing at the limit and another, one deeper,
below it. -/
lemma implements_limited {beyond inner : Nat → MachineM α}
    (hbeyond : Parser.nestingLimit ≤ depth → Implements tokens depth beyond p)
    (hinner : depth < Parser.nestingLimit → Implements tokens (depth + 1) inner p) :
    Implements tokens depth
      (fun fuel => get >>= fun m => if Parser.nestingLimit ≤ m.depth then beyond fuel
        else deeper >>= fun _ => inner fuel >>= fun a => shallower >>= fun _ => pure a) p := by
  intro m hinside hdepth
  change Follows tokens (fun fuel => if Parser.nestingLimit ≤ m.depth then beyond fuel
    else deeper >>= fun _ => inner fuel >>= fun a => shallower >>= fun _ => pure a) p m
  by_cases hlimit : Parser.nestingLimit ≤ m.depth
  · simp only [if_pos hlimit]
    exact hbeyond (hdepth ▸ hlimit) m hinside hdepth
  · simp only [if_neg hlimit]
    exact follows_nested (hinner (by omega) _ hinside (congrArg (· + 1) hdepth))

/-! ## Passing over -/

/-- Leave some of the tokens ahead, and do nothing else. -/
def leaving (rest : List Token → List Token) : Parser Unit :=
  Parser.move fun c => { c with tokens := rest c.tokens }

/-- All tokens ahead are left. -/
lemma follows_stay {rest : List Token → List Token}
    (h : rest (m.cursor tokens).tokens = (m.cursor tokens).tokens) :
    Follows tokens (fun _ => pure ()) (leaving rest) m := by
  refine ⟨m, gives_of_eq rfl, .refl, ?_, rfl, (List.append_nil _).symm⟩
  change m.cursor tokens =
    { m.cursor tokens with tokens := rest (m.cursor tokens).tokens }
  rw [h]

/-- One token is passed over, and then the tokens behind it. -/
lemma follows_pass {q : Nat → MachineM Unit} {rest rest' : List Token → List Token}
    (hlt : m.position < stop tokens)
    (h : ∀ later, rest (m.seen tokens :: later) = rest' later)
    (hq : Follows tokens q (leaving rest') { m with position := m.position + 1 }) :
    Follows tokens (fun fuel => advance tokens >>= fun _ => q fuel) (leaving rest) m := by
  have hleaving : leaving rest (m.cursor tokens) =
      (Parser.advance >>= fun _ => leaving rest') (m.cursor tokens) := by
    change (⟨(), [], { m.cursor tokens with tokens := rest (m.cursor tokens).tokens }⟩ :
        Parsed Unit) =
      ⟨(), [], { m.cursor tokens with tokens := rest' (m.cursor tokens).tokens.tail }⟩
    rw [(cursor_of_lt hlt).1, h, List.tail_cons]
  exact .congr hleaving
    (follows_bind_of (gives_of_eq (advance_of_lt hlt)) (agrees_advance hlt) hq)

/-- **Passing over tokens one by one**, while a level is counted, leaves what the parser leaves, if
it does so at the end and in each round. -/
lemma follows_skip {skip : Nat → Nat → MachineM Unit} {rest : Nat → List Token → List Token}
    (hend : ∀ (level : Nat) (m : Machine), m.position = stop tokens →
      Follows tokens (skip level) (leaving (rest level)) m)
    (hround : ∀ (level : Nat) (m : Machine), m.position < stop tokens →
      (∀ level', Follows tokens (skip level') (leaving (rest level'))
        { m with position := m.position + 1 }) →
      Follows tokens (skip level) (leaving (rest level)) m)
    (level : Nat) (hinside : m.position ≤ stop tokens) :
    Follows tokens (skip level) (leaving (rest level)) m := by
  obtain ⟨left, hleft⟩ : ∃ left, stop tokens - m.position = left := ⟨_, rfl⟩
  induction left generalizing m level with
  | zero => exact hend level m (by omega)
  | succ left ih =>
    have hlt : m.position < stop tokens := by omega
    refine hround level m hlt fun level' => ih level' hlt ?_
    change stop tokens - (m.position + 1) = left
    omega

/-- Passing over a block token by token leaves what the parser leaves at once. -/
lemma follows_skipBlock (boundaries : List String) (level : Nat)
    (hinside : m.position ≤ stop tokens) :
    Follows tokens (skipBlock tokens boundaries level)
      (leaving (tokensFromBoundary boundaries level)) m := by
  refine follows_skip (fun level m heq => ?_) (fun level m hlt hlater => ?_) level hinside
  · refine .of_succ ?_
    simp only [Machine.skipBlock]
    refine follows_ask (atEnd_of_eq heq) (follows_stay ?_)
    rw [(cursor_of_eq heq).1, tokensFromBoundary]
  · refine .of_succ ?_
    simp only [Machine.skipBlock]
    refine follows_ask (atEnd_of_lt hlt) (follows_ask (peek_apply tokens m) ?_)
    refine follows_ite (fun hboundary => follows_stay ?_) fun hboundary => ?_
    · rw [(cursor_of_lt hlt).1, tokensFromBoundary, if_pos hboundary]
    refine follows_ite (fun hopener => follows_pass hlt (fun _ => ?_) (hlater _)) fun hopener => ?_
    · rw [tokensFromBoundary, if_neg hboundary, if_pos hopener]
    refine follows_ite (fun hcloser => follows_pass hlt (fun _ => ?_) (hlater _)) fun hcloser =>
      follows_pass hlt (fun _ => ?_) (hlater _)
    · rw [tokensFromBoundary, if_neg hboundary, if_neg hopener, if_pos hcloser]
    · rw [tokensFromBoundary, if_neg hboundary, if_neg hopener, if_neg hcloser]

/-- Passing over a group token by token leaves what the parser leaves at once. -/
lemma follows_skipGroup (line level : Nat) (hinside : m.position ≤ stop tokens) :
    Follows tokens (skipGroup tokens line level) (leaving (tokensAfterGroup line level)) m := by
  refine follows_skip (fun level m heq => ?_) (fun level m hlt hlater => ?_) level hinside
  · refine .of_succ ?_
    simp only [Machine.skipGroup]
    refine follows_ask (atEnd_of_eq heq) (follows_stay ?_)
    rw [(cursor_of_eq heq).1, tokensAfterGroup]
  · refine .of_succ ?_
    simp only [Machine.skipGroup]
    refine follows_ask (atEnd_of_lt hlt) (follows_ask (peek_apply tokens m) ?_)
    simp only [Bool.false_or]
    refine follows_ite (fun hline => follows_stay ?_) fun hline => ?_
    · rw [(cursor_of_lt hlt).1, tokensAfterGroup, if_pos hline]
    refine follows_ite (fun hopening => follows_pass hlt (fun _ => ?_) (hlater _))
      fun hopening => ?_
    · rw [tokensAfterGroup, if_neg hline, if_pos hopening]
    refine follows_ite (fun hclosing => ?_) fun hclosing =>
      follows_pass hlt (fun _ => ?_) (hlater _)
    · by_cases hlast : level ≤ 1
      · simp only [if_pos hlast]
        have hstay : Follows tokens (fun _ => pure ()) (leaving fun later => later)
            { m with position := m.position + 1 } := follows_stay rfl
        refine follows_pass hlt (fun _ => ?_) hstay
        rw [tokensAfterGroup, if_neg hline, if_neg hopening, if_pos hclosing, if_pos hlast]
      · simp only [if_neg hlast]
        refine follows_pass hlt (fun _ => ?_) (hlater _)
        rw [tokensAfterGroup, if_neg hline, if_neg hopening, if_pos hclosing, if_neg hlast]
    · rw [tokensAfterGroup, if_neg hline, if_neg hopening, if_neg hclosing]

/-! ## Loops -/

/-- A repetition asks whether to stop, and otherwise goes on behind an item. -/
lemma manyUntil_apply {ends : Cursor → Bool} {item : Parser (Option α)}
    (hitem : Parser.Stepping item) (c : Cursor) :
    Parser.manyUntil ends item c =
      (Parser.look (fun c => c.atEnd || ends c) >>= fun stops => if stops = true then pure [] else
        item >>= fun found => Parser.manyUntil ends item >>= fun later =>
          pure (found.toList ++ later)) c := by
  rw [Parser.look_bind_apply]
  cases hends : c.atEnd || ends c with
  | true => exact Parser.manyUntil_of_stop hends
  | false =>
    rw [Parser.manyUntil_of_go hitem hends, if_neg Bool.false_ne_true]
    simp only [bind, pure, List.append_nil]

/-- **A loop that asks whether to stop, and otherwise reads an item and goes on**, follows the
repetition of a parser that takes a token.

**Proof sketch.** Induction on the number of tokens ahead. Where the loop does not stop it is before
the end, the item takes a token, and the rest of the loop has fewer tokens ahead. -/
lemma implements_manyUntil {loop : Nat → MachineM (List α)} {ask : MachineM Bool}
    {item : Nat → MachineM (Option α)} {ends : Cursor → Bool} {q : Parser (Option α)}
    (hloop : ∀ fuel, loop (fuel + 1) = ask >>= fun stops => if stops = true then pure [] else
      item fuel >>= fun found => loop fuel >>= fun later => pure (found.toList ++ later))
    (hask : Answers tokens ask fun c => c.atEnd || ends c)
    (hitem : Begins tokens depth item q) (hstep : Parser.Stepping q) :
    Implements tokens depth loop (Parser.manyUntil ends q) := by
  intro m hinside hdepth
  obtain ⟨left, hleft⟩ : ∃ left, (m.cursor tokens).tokens.length = left := ⟨_, rfl⟩
  induction left using Nat.strongRecOn generalizing m with
  | ind left ih =>
    refine .of_succ (.congr (manyUntil_apply hstep _) ?_)
    simp only [hloop]
    refine hask.follows_bind hinside ?_
    cases hends : (m.cursor tokens).atEnd || ends (m.cursor tokens) with
    | true => exact follows_pure []
    | false =>
      have hne : (m.cursor tokens).tokens ≠ [] := by
        intro hnil
        simp [Cursor.atEnd, hnil] at hends
      have hlt : m.position < stop tokens :=
        Nat.lt_of_le_of_ne hinside fun heq => hne (cursor_of_eq heq).1
      refine (hitem m hlt hdepth).bind fun mid hmid => ?_
      have hshort := hstep.length_lt hne
      have hmidInside := (hmid.moves.position_le hinside).2
      have hmidDepth := hmid.depth.trans hdepth
      refine (ih _ ?_ mid hmidInside hmidDepth rfl).bind fun last hlast => follows_pure _
      rw [hmid.cursor]
      omega

/-- A loop that is given as much fuel as there are tokens ahead. -/
lemma implements_fuelled {loop : Nat → MachineM α} {list : Nat → Parser α}
    (h : ∀ (fuel : Nat) (m : Machine), m.position ≤ stop tokens → m.depth = depth →
      stop tokens ≤ m.position + fuel → Follows tokens loop (list fuel) m) :
    Implements tokens depth loop (Parser.fuelled list) := by
  intro m hinside hdepth
  have hlength := length_cursor tokens m
  exact h (m.cursor tokens).tokens.length m hinside hdepth (by omega)

/-- A symbol that is there is taken, and then the machine is one token further. -/
lemma follows_takeSymbol_bind {symbol : String} {f : Nat → Bool → MachineM β}
    {g : Bool → Parser β} (hinside : m.position ≤ stop tokens)
    (hfound : m.position < stop tokens →
      Follows tokens (fun fuel => f fuel true) (g true) { m with position := m.position + 1 })
    (hmissing : Follows tokens (fun fuel => f fuel false) (g false) m) :
    Follows tokens (fun fuel => takeSymbol tokens symbol >>= f fuel)
      (Parser.takeSymbol symbol >>= g) m := by
  have hask : atSymbol tokens symbol m = some ((m.cursor tokens).peek.isSymbol symbol, m) :=
    answers_atSymbol symbol m hinside
  cases hsymbol : (m.cursor tokens).peek.isSymbol symbol with
  | true =>
    rw [hsymbol] at hask
    have hlt : m.position < stop tokens := by
      refine Nat.lt_of_le_of_ne hinside fun heq => ?_
      rw [(token_at_of_eq heq).1] at hsymbol
      exact Bool.false_ne_true hsymbol
    have htake : takeSymbol tokens symbol m =
        some (true, { m with position := m.position + 1 }) := by
      rw [takeSymbol, bind_of_eq hask, if_pos rfl, bind_of_eq (advance_of_lt hlt)]
      rfl
    have hparser : Parser.takeSymbol symbol (m.cursor tokens) =
        ⟨true, [], (m.cursor tokens).advance⟩ := by
      rw [Parser.takeSymbol, Parser.atSymbol, Parser.look_bind_apply, if_pos hsymbol]
      rfl
    refine follows_bind_of (gives_of_eq htake) ?_ ?_
    · rw [hparser]
      exact agrees_advance hlt
    · rw [hparser]
      exact hfound hlt
  | false =>
    rw [hsymbol] at hask
    have htake : takeSymbol tokens symbol m = some (false, m) := by
      rw [takeSymbol, bind_of_eq hask, if_neg Bool.false_ne_true]
      rfl
    have hparser : Parser.takeSymbol symbol (m.cursor tokens) = ⟨false, [], m.cursor tokens⟩ := by
      rw [Parser.takeSymbol, Parser.atSymbol, Parser.look_bind_apply,
        if_neg (by rw [hsymbol]; exact Bool.false_ne_true)]
      rfl
    refine follows_bind_of (gives_of_eq htake) ?_ ?_
    · rw [hparser]
      exact .refl tokens m
    · rw [hparser]
      exact hmissing

/-- A loop that stops at the end stops there without asking the parser. -/
lemma Answers.follows_at_end {ask : MachineM Bool} {ends : Cursor → Bool}
    {f : Nat → Bool → MachineM β} {q : Parser β}
    (h : Answers tokens ask fun c => c.atEnd || ends c) (heq : m.position = stop tokens)
    (hf : Follows tokens (fun fuel => f fuel true) q m) :
    Follows tokens (fun fuel => ask >>= f fuel) q m := by
  have hask := h m (Nat.le_of_eq heq)
  simp only [(token_at_of_eq heq).2, Bool.true_or] at hask
  exact follows_ask hask hf

/-- **A list up to the closing parenthesis**, where an item that cannot be read is reported. An item
need not take a token, but a comma is one.

**Proof sketch.** Induction on the fuel, which is never less than the number of tokens ahead. Each
round that goes on has taken a comma. -/
lemma implements_list {loop : Nat → MachineM (List α)} {item : Nat → MachineM (Option α)}
    {q : Parser (Option α)} {list : Nat → Parser (List α)} {fault : Fault}
    (hloop : ∀ fuel, loop (fuel + 1) = atListEnd tokens >>= fun stops =>
      if stops = true then pure [] else
      item fuel >>= fun found => takeSymbol tokens "," >>= fun comma =>
        if comma = true then loop fuel >>= fun later => pure (found.toList ++ later) else
        atSymbol tokens ")" >>= fun closing => if closing = true then pure found.toList else
        report tokens fault >>= fun _ => pure found.toList)
    (hzero : list 0 = pure [])
    (hsucc : ∀ fuel, list (fuel + 1) =
      Parser.look (fun c => c.atEnd || c.peek.isSymbol ")") >>= fun stops =>
        if stops = true then pure [] else
        q >>= fun found => Parser.goOnStrictly fault found (list fuel))
    (hitem : Implements tokens depth item q) :
    Implements tokens depth loop (Parser.fuelled list) := by
  refine implements_fuelled fun fuel => ?_
  induction fuel with
  | zero =>
    intro m hinside hdepth hfuel
    refine .of_succ ?_
    simp only [hloop, hzero]
    exact answers_atListEnd.follows_at_end (by omega) (follows_pure [])
  | succ fuel ih =>
    intro m hinside hdepth hfuel
    refine .of_succ ?_
    simp only [hloop, hsucc]
    refine answers_atListEnd.follows_bind hinside ?_
    cases (m.cursor tokens).atEnd || (m.cursor tokens).peek.isSymbol ")" with
    | true => exact follows_pure []
    | false =>
      refine (hitem m hinside hdepth).bind fun mid hmid => ?_
      obtain ⟨hle, hmidInside⟩ := hmid.moves.position_le hinside
      have hmidDepth := hmid.depth.trans hdepth
      refine follows_takeSymbol_bind hmidInside (fun hlt => ?_) ?_
      · refine (ih { mid with position := mid.position + 1 } hlt hmidDepth ?_).bind
          fun last hlast => follows_pure _
        change stop tokens ≤ mid.position + 1 + fuel
        omega
      · refine (answers_atSymbol ")").implements.bind (fun closing => ?_) mid hmidInside hmidDepth
        cases closing with
        | true => exact implements_pure _
        | false => exact (implements_report fault).bind fun _ => implements_pure _

end Rules

end Machine

end DialogueScript
