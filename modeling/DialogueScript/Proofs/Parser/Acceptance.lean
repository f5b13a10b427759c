import DialogueScript.Parser.Statement
import Mathlib.Tactic.Common

set_option autoImplicit false

/-!
# Runs of parsers without a report

A parser *accepts* at a cursor when it runs without adding a report. Accepting runs compose: a
sequence of parsers accepts exactly when its parts do, one behind the other. With one such
equivalence for each primitive, a parser turns into a statement about the tokens ahead.

The loops of the parsers are given the number of tokens ahead as fuel. An item that takes at least
one token never uses it up, and then an accepting run of a loop is a *repetition* of its item.

## Main definitions

* `DialogueScript.Reading` — what a parser accepts: tokens, a result, the tokens behind it.
* `DialogueScript.Parser.Accepts` — a run without a report.
* `DialogueScript.Parser.Recognizes` — a parser accepts exactly what a reading relates.
* `DialogueScript.Reading.Many`, `DialogueScript.Reading.Separated` — repetition, plain and with
  commas.

## Main results

* `DialogueScript.Parser.accepts_bind` — accepting runs compose.
* `DialogueScript.Parser.accepts_manyUntil_iff` — `manyUntil` accepts repetitions.
* `DialogueScript.Parser.CommaLoop.accepts_iff` — so do the three loops over lists with commas.
-/

namespace DialogueScript

/-! ## Readings -/

/-- A reading relates tokens to a result and to the rest: the tokens begin with a spelling of the
result, and the rest is what stands behind that spelling. -/
abbrev Reading (α : Type) : Type :=
  List Token → α → List Token → Prop

namespace Reading

variable {α : Type}

/-- A repetition: items one behind the other, of which some give no result. -/
inductive Many (item : Reading (Option α)) : List Token → List α → List Token → Prop
  /-- Nothing is taken. -/
  | done {ts : List Token} : Many item ts [] ts
  /-- An item, and a repetition behind it. -/
  | item {ts mid rest : List Token} {r : Option α} {as : List α} (hr : item ts r mid)
      (has : Many item mid as rest) : Many item ts (r.toList ++ as) rest

/-- Items separated by commas; one more comma may stand behind the last. -/
inductive Separated (item : Reading α) : List Token → List α → List Token → Prop
  /-- Nothing is taken. -/
  | nil {ts : List Token} : Separated item ts [] ts
  /-- The last item. -/
  | last {ts rest : List Token} {a : α} (ha : item ts a rest) : Separated item ts [a] rest
  /-- An item, a comma, and whatever follows. -/
  | more {ts mid rest : List Token} {comma : Token} {a : α} {as : List α}
      (ha : item ts a (comma :: mid)) (hcomma : comma.isSymbol "," = true)
      (has : Separated item mid as rest) : Separated item ts (a :: as) rest

/-- The reading, as one of an optional result that is always there. -/
def option (reading : Reading α) : Reading (Option α) :=
  fun ts r rest => ∃ a, r = some a ∧ reading ts a rest

/-- The reading takes at least one token. -/
def Takes (reading : Reading α) : Prop :=
  ∀ {ts a rest}, reading ts a rest → rest.length < ts.length

/-- Behind something that takes a token there are tokens. -/
lemma Takes.ne_nil {reading : Reading α} (htakes : reading.Takes) {ts rest : List Token} {a : α}
    (h : reading ts a rest) : ts ≠ [] := by
  rintro rfl
  have := htakes h
  simp at this

end Reading

/-! ## Cursors over explicit tokens -/

namespace Cursor

variable {t u : Token} {ts : List Token} {n : Nat}

/-- The token at the cursor is the first one ahead. -/
@[simp] lemma peek_cons : (⟨t :: ts, n⟩ : Cursor).peek = t := rfl

/-- With no token ahead, the cursor is at the end of the input. -/
@[simp] lemma peek_nil : (⟨[], n⟩ : Cursor).peek = Token.endOfInput n := rfl

/-- Advancing drops the first token ahead, if there is one. -/
@[simp] lemma advance_mk : (⟨ts, n⟩ : Cursor).advance = ⟨ts.tail, n⟩ := rfl

/-- The input has ended if no token is ahead. -/
@[simp] lemma atEnd_mk : (⟨ts, n⟩ : Cursor).atEnd = ts.isEmpty := rfl

/-- The next token but one is the second one ahead. -/
@[simp] lemma nextIsSymbol_cons_cons {symbol : String} :
    (⟨t :: u :: ts, n⟩ : Cursor).nextIsSymbol symbol = u.isSymbol symbol := rfl

/-- Behind the last token there is no symbol. -/
@[simp] lemma nextIsSymbol_singleton {symbol : String} :
    (⟨[t], n⟩ : Cursor).nextIsSymbol symbol = false := rfl

end Cursor

namespace Token

variable {n : Nat} {word : String}

/-- The end of the input is no symbol. -/
@[simp] lemma endOfInput_isSymbol : (endOfInput n).isSymbol word = false := rfl

/-- The end of the input is no reserved word. -/
@[simp] lemma endOfInput_isKeyword : (endOfInput n).isKeyword word = false := rfl

/-- The end of the input has a kind of its own. -/
@[simp] lemma endOfInput_kind : (endOfInput n).kind = .eof := rfl

/-- A symbol token is one symbol only. -/
lemma isSymbol_ne {t : Token} {a b : String} (ha : t.isSymbol a = true) (hab : a ≠ b) :
    t.isSymbol b = false := by
  simp only [isSymbol, Bool.and_eq_true, beq_iff_eq] at ha
  simp [isSymbol, ha.2, hab]

end Token

/-- A cursor that looks at a symbol has a token ahead. -/
lemma Cursor.exists_cons_of_isSymbol {ts : List Token} {n : Nat} {symbol : String}
    (h : (⟨ts, n⟩ : Cursor).peek.isSymbol symbol = true) :
    ∃ t later, ts = t :: later ∧ t.isSymbol symbol = true := by
  cases ts with
  | nil => simp at h
  | cons t later => exact ⟨t, later, rfl, by simpa using h⟩

/-- A cursor that looks at a reserved word has a token ahead. -/
lemma Cursor.exists_cons_of_isKeyword {ts : List Token} {n : Nat} {word : String}
    (h : (⟨ts, n⟩ : Cursor).peek.isKeyword word = true) :
    ∃ t later, ts = t :: later ∧ t.isKeyword word = true := by
  cases ts with
  | nil => simp at h
  | cons t later => exact ⟨t, later, rfl, by simpa using h⟩

namespace Parser

variable {α β : Type}

/-! ## Accepting runs -/

/-- At the cursor `c` the parser gives `a` and leaves the cursor `c'`, without a report. -/
def Accepts (p : Parser α) (c : Cursor) (a : α) (c' : Cursor) : Prop :=
  p c = ⟨a, [], c'⟩

/-- What takes no token accepts with its result and stays where it is. -/
@[simp] lemma accepts_pure {a b : α} {c c' : Cursor} :
    Accepts (pure a) c b c' ↔ b = a ∧ c' = c := by
  simp only [Accepts, pure, Parsed.mk.injEq, true_and]
  constructor
  · rintro ⟨rfl, rfl⟩
    exact ⟨rfl, rfl⟩
  · rintro ⟨rfl, rfl⟩
    exact ⟨rfl, rfl⟩

/-- **Accepting runs compose**: a sequence accepts when its first part does, and then its second
part from where the first one stopped. -/
lemma accepts_bind {p : Parser α} {f : α → Parser β} {c c' : Cursor} {b : β} :
    Accepts (p >>= f) c b c' ↔ ∃ a mid, Accepts p c a mid ∧ Accepts (f a) mid b c' := by
  simp only [Accepts, bind, Parsed.mk.injEq, List.append_eq_nil_iff]
  constructor
  · rintro ⟨hb, ⟨hp, hf⟩, hc⟩
    exact ⟨(p c).value, (p c).rest, by rw [← hp], by rw [← hb, ← hf, ← hc]⟩
  · rintro ⟨a, mid, hp, hf⟩
    simp [hp, hf]

/-- The last result may be rearranged. -/
@[simp] lemma accepts_bind_pure {p : Parser α} {f : α → β} {c c' : Cursor} {b : β} :
    Accepts (p >>= fun a => pure (f a)) c b c' ↔ ∃ a, b = f a ∧ Accepts p c a c' := by
  rw [accepts_bind]
  constructor
  · rintro ⟨a, mid, hp, h⟩
    obtain ⟨rfl, rfl⟩ := accepts_pure.mp h
    exact ⟨a, rfl, hp⟩
  · rintro ⟨a, rfl, hp⟩
    exact ⟨a, c', hp, accepts_pure.mpr ⟨rfl, rfl⟩⟩

/-- A report is never part of an accepting run. -/
@[simp] lemma not_accepts_report {fault : Fault} {c c' : Cursor} {u : Unit} :
    ¬ Accepts (report fault) c u c' := by
  simp [Accepts, report]

/-- What begins with a report accepts nothing. -/
@[simp] lemma not_accepts_report_bind {fault : Fault} {f : Unit → Parser α} {c c' : Cursor}
    {a : α} : ¬ Accepts (report fault >>= f) c a c' := by
  simp [accepts_bind]

/-- Giving up is no way to accept. -/
@[simp] lemma not_accepts_giveUp {fault : Fault} {c c' : Cursor} {r : Option α} :
    ¬ Accepts (giveUp fault) c r c' :=
  not_accepts_report_bind

/-- A choice accepts what the chosen side accepts. -/
@[simp] lemma accepts_ite {b : Prop} [Decidable b] {p q : Parser α} {c c' : Cursor} {a : α} :
    Accepts (if b then p else q) c a c' ↔ if b then Accepts p c a c' else Accepts q c a c' := by
  split <;> rfl

/-- A question about the cursor is answered on the spot. -/
@[simp] lemma accepts_look_bind {f : Cursor → α} {g : α → Parser β} {c c' : Cursor} {b : β} :
    Accepts (look f >>= g) c b c' ↔ Accepts (g (f c)) c b c' := by
  rw [accepts_bind]
  constructor
  · rintro ⟨_, _, ⟨rfl, rfl⟩, h⟩
    exact h
  · intro h
    exact ⟨f c, c, rfl, h⟩

/-- Taking a token accepts whatever is at the cursor. -/
@[simp] lemma accepts_advance {c c' : Cursor} {t : Token} :
    Accepts advance c t c' ↔ t = c.peek ∧ c' = c.advance := by
  simp only [Accepts, advance, Parsed.mk.injEq, true_and, eq_comm]

/-- To accept by taking a token first, go on with it behind the cursor. -/
@[simp] lemma accepts_advance_bind {g : Token → Parser β} {c c' : Cursor} {b : β} :
    Accepts (advance >>= g) c b c' ↔ Accepts (g c.peek) c.advance b c' := by
  rw [accepts_bind]
  constructor
  · rintro ⟨_, _, ⟨rfl, rfl⟩, h⟩
    exact h
  · intro h
    exact ⟨c.peek, c.advance, rfl, h⟩

/-- Looking at the token at the cursor costs nothing. -/
@[simp] lemma accepts_peek_bind {g : Token → Parser β} {c c' : Cursor} {b : β} :
    Accepts (peek >>= g) c b c' ↔ Accepts (g c.peek) c b c' := accepts_look_bind

/-- The question for a symbol is answered by the token at the cursor. -/
@[simp] lemma accepts_atSymbol_bind {symbol : String} {g : Bool → Parser β} {c c' : Cursor}
    {b : β} : Accepts (atSymbol symbol >>= g) c b c' ↔
      Accepts (g (c.peek.isSymbol symbol)) c b c' := accepts_look_bind

/-- The question for a kind is answered by the token at the cursor. -/
@[simp] lemma accepts_atKind_bind {kind : TokenKind} {g : Bool → Parser β} {c c' : Cursor}
    {b : β} : Accepts (atKind kind >>= g) c b c' ↔
      Accepts (g (c.peek.kind == kind)) c b c' := accepts_look_bind

/-- The question for a symbol behind the next token is answered by the cursor. -/
@[simp] lemma accepts_nextIsSymbol_bind {symbol : String} {g : Bool → Parser β} {c c' : Cursor}
    {b : β} : Accepts (nextIsSymbol symbol >>= g) c b c' ↔
      Accepts (g (c.nextIsSymbol symbol)) c b c' := accepts_look_bind

/-- What follows an attempt to take a symbol starts behind the symbol if it is there. -/
@[simp] lemma accepts_takeSymbol_bind {symbol : String} {g : Bool → Parser β} {c c' : Cursor}
    {b : β} : Accepts (takeSymbol symbol >>= g) c b c' ↔
      if c.peek.isSymbol symbol = true then Accepts (g true) c.advance b c'
      else Accepts (g false) c b c' := by
  rw [accepts_bind]
  cases h : c.peek.isSymbol symbol <;> simp [takeSymbol, h]

/-- What follows an attempt to take a reserved word starts behind the word if it is there. -/
@[simp] lemma accepts_takeKeyword_bind {word : String} {g : Bool → Parser β} {c c' : Cursor}
    {b : β} : Accepts (takeKeyword word >>= g) c b c' ↔
      if c.peek.isKeyword word = true then Accepts (g true) c.advance b c'
      else Accepts (g false) c b c' := by
  have hword : ∀ {f : Bool → Parser Bool} {r mid}, Accepts (atKeyword word >>= f) c r mid ↔
      Accepts (f (c.peek.isKeyword word)) c r mid := accepts_look_bind
  rw [accepts_bind]
  cases h : c.peek.isKeyword word <;> simp [takeKeyword, hword, h]

/-- A symbol that is required: without it there is a report. -/
lemma accepts_requireSymbol_iff {symbol : String} {g : Bool → Parser β} {ts : List Token} {n : Nat}
    {b : β} {c' : Cursor} (hfail : ∀ {c}, ¬ Accepts (g false) c b c') :
    Accepts (takeSymbol symbol >>= g) ⟨ts, n⟩ b c' ↔
      ∃ t later, ts = t :: later ∧ t.isSymbol symbol = true ∧ Accepts (g true) ⟨later, n⟩ b c' := by
  rw [accepts_takeSymbol_bind]
  constructor
  · intro h
    split at h
    · rename_i ht
      obtain ⟨t, later, rfl, ht⟩ := Cursor.exists_cons_of_isSymbol ht
      exact ⟨t, later, rfl, ht, h⟩
    · exact absurd h hfail
  · rintro ⟨t, later, rfl, ht, h⟩
    rw [if_pos (by simpa using ht)]
    exact h

/-- A reserved word that is required: without it there is a report. -/
lemma accepts_requireKeyword_iff {word : String} {g : Bool → Parser β} {ts : List Token} {n : Nat}
    {b : β} {c' : Cursor} (hfail : ∀ {c}, ¬ Accepts (g false) c b c') :
    Accepts (takeKeyword word >>= g) ⟨ts, n⟩ b c' ↔
      ∃ t later, ts = t :: later ∧ t.isKeyword word = true ∧ Accepts (g true) ⟨later, n⟩ b c' := by
  rw [accepts_takeKeyword_bind]
  constructor
  · intro h
    split at h
    · rename_i ht
      obtain ⟨t, later, rfl, ht⟩ := Cursor.exists_cons_of_isKeyword ht
      exact ⟨t, later, rfl, ht, h⟩
    · exact absurd h hfail
  · rintro ⟨t, later, rfl, ht, h⟩
    rw [if_pos (by simpa using ht)]
    exact h

/-! ## Recognition -/

/-- A parser recognizes a reading if it accepts exactly what the reading relates. -/
def Recognizes (p : Parser α) (reading : Reading α) : Prop :=
  ∀ (ts : List Token) (n : Nat) (a : α) (c' : Cursor),
    Accepts p ⟨ts, n⟩ a c' ↔ ∃ rest, c' = ⟨rest, n⟩ ∧ reading ts a rest

namespace Recognizes

variable {ts : List Token} {n : Nat} {b : β} {c' : Cursor}

/-- What follows starts behind what was recognized. -/
lemma bind_iff {p : Parser α} {reading : Reading α} (h : p.Recognizes reading)
    {g : α → Parser β} : Accepts (p >>= g) ⟨ts, n⟩ b c' ↔
      ∃ a mid, reading ts a mid ∧ Accepts (g a) ⟨mid, n⟩ b c' := by
  rw [accepts_bind]
  constructor
  · rintro ⟨a, mid, hp, hg⟩
    obtain ⟨mid, rfl, hread⟩ := (h _ _ _ _).mp hp
    exact ⟨a, mid, hread, hg⟩
  · rintro ⟨a, mid, hread, hg⟩
    exact ⟨a, ⟨mid, n⟩, (h _ _ _ _).mpr ⟨mid, rfl, hread⟩, hg⟩

/-- What follows a result that is always there need only deal with that case. -/
lemma option_bind_iff {p : Parser (Option α)} {reading : Reading α}
    (h : p.Recognizes reading.option) {g : Option α → Parser β} :
    Accepts (p >>= g) ⟨ts, n⟩ b c' ↔
      ∃ a mid, reading ts a mid ∧ Accepts (g (some a)) ⟨mid, n⟩ b c' := by
  rw [h.bind_iff]
  constructor
  · rintro ⟨_, mid, ⟨a, rfl, hread⟩, hg⟩
    exact ⟨a, mid, hread, hg⟩
  · rintro ⟨a, mid, hread, hg⟩
    exact ⟨some a, mid, ⟨a, rfl, hread⟩, hg⟩

/-- Whatever recognizes results never accepts without one. -/
lemma not_accepts_none {p : Parser (Option α)} {reading : Reading α}
    (h : p.Recognizes reading.option) {c c' : Cursor} : ¬ Accepts p c none c' := by
  intro hnone
  obtain ⟨_, _, _, ha, _⟩ := (h _ _ _ _).mp hnone
  contradiction

end Recognizes

/-! ## Repetition -/

/-- A loop with enough fuel accepts the repetitions of its item, up to where it has to stop.

**Proof sketch.** Induction on the fuel. Where the loop stops, the repetition is empty: an item
cannot begin there. Otherwise one item is taken, and the tokens behind it are fewer, so that the
remaining fuel is enough for them. -/
lemma accepts_manyWithin_iff {stop : Cursor → Bool} {item : Parser (Option α)}
    {reading : Reading (Option α)} (hitem : item.Recognizes reading) (htakes : reading.Takes)
    (hstop : ∀ {ts r rest} (n : Nat), reading ts r rest → stop ⟨ts, n⟩ = false)
    (fuel : Nat) {ts : List Token} {n : Nat} {as : List α} {c' : Cursor}
    (hfuel : ts.length ≤ fuel) :
    Accepts (manyWithin stop item fuel) ⟨ts, n⟩ as c' ↔
      ∃ rest, c' = ⟨rest, n⟩ ∧ reading.Many ts as rest ∧
        (rest = [] ∨ stop ⟨rest, n⟩ = true) := by
  induction fuel generalizing ts as with
  | zero =>
    obtain rfl : ts = [] := List.length_eq_zero_iff.mp (by omega)
    simp only [manyWithin, accepts_pure]
    constructor
    · rintro ⟨rfl, rfl⟩
      exact ⟨[], rfl, .done, .inl rfl⟩
    · rintro ⟨rest, rfl, hmany, -⟩
      cases hmany with
      | done => exact ⟨rfl, rfl⟩
      | item hr _ => exact absurd rfl (htakes.ne_nil hr)
  | succ fuel ih =>
    simp only [manyWithin, accepts_look_bind, accepts_ite, accepts_pure]
    by_cases hend : ((⟨ts, n⟩ : Cursor).atEnd || stop ⟨ts, n⟩) = true
    · have hend' : ts = [] ∨ stop ⟨ts, n⟩ = true := by simpa using hend
      constructor
      · intro h
        rw [if_pos hend] at h
        obtain ⟨rfl, rfl⟩ := h
        exact ⟨ts, rfl, .done, hend'⟩
      · rintro ⟨rest, rfl, hmany, -⟩
        rw [if_pos hend]
        cases hmany with
        | done => exact ⟨rfl, rfl⟩
        | item hr _ =>
          rcases hend' with hnil | hs
          · exact absurd hnil (htakes.ne_nil hr)
          · rw [hstop n hr] at hs
            contradiction
    · have hgo : ts ≠ [] ∧ stop ⟨ts, n⟩ = false := by simpa using hend
      constructor
      · intro h
        rw [if_neg hend, accepts_bind] at h
        obtain ⟨r, mid, hr, h⟩ := h
        obtain ⟨later, rest, hlater, h⟩ := accepts_bind.mp h
        obtain ⟨rfl, rfl⟩ := accepts_pure.mp h
        obtain ⟨mid, rfl, hread⟩ := (hitem _ _ _ _).mp hr
        have hshort := htakes hread
        obtain ⟨rest, rfl, hmany, hrest⟩ := (ih (by omega)).mp hlater
        exact ⟨rest, rfl, .item hread hmany, hrest⟩
      · rintro ⟨rest, rfl, hmany, hrest⟩
        rw [if_neg hend, accepts_bind]
        cases hmany with
        | done => exact absurd hrest (by simp [hgo])
        | @item _ mid _ r as hr hmany =>
          have hshort := htakes hr
          refine ⟨r, ⟨mid, n⟩, (hitem _ _ _ _).mpr ⟨mid, rfl, hr⟩,
            accepts_bind.mpr ⟨as, ⟨rest, n⟩, ?_, ?_⟩⟩
          · exact (ih (by omega)).mpr ⟨rest, rfl, hmany, hrest⟩
          · exact accepts_pure.mpr ⟨rfl, rfl⟩

/-- `manyUntil` accepts the repetitions of its item, up to where it has to stop. -/
lemma accepts_manyUntil_iff {stop : Cursor → Bool} {item : Parser (Option α)}
    {reading : Reading (Option α)} (hitem : item.Recognizes reading) (htakes : reading.Takes)
    (hstop : ∀ {ts r rest} (n : Nat), reading ts r rest → stop ⟨ts, n⟩ = false)
    {ts : List Token} {n : Nat} {as : List α} {c' : Cursor} :
    Accepts (manyUntil stop item) ⟨ts, n⟩ as c' ↔
      ∃ rest, c' = ⟨rest, n⟩ ∧ reading.Many ts as rest ∧
        (rest = [] ∨ stop ⟨rest, n⟩ = true) :=
  accepts_manyWithin_iff hitem htakes hstop ts.length (Nat.le_refl _)

/-! ## Lists with commas -/

/-- One round of a loop over items with commas between them, as far as accepting runs that end in
front of a closing parenthesis are concerned: the loop stops at such a parenthesis, and otherwise
takes an item, behind which a comma continues the loop and a parenthesis ends it. -/
structure CommaLoop (item : Parser (Option α)) (loop : Nat → Parser (List α)) : Prop where
  /-- Without fuel nothing is taken. -/
  zero {c c' : Cursor} {as : List α} : Accepts (loop 0) c as c' ↔ as = [] ∧ c' = c
  /-- With fuel the loop makes a round. -/
  succ {fuel : Nat} {c c' : Cursor} {as : List α} (hclose : c'.peek.isSymbol ")" = true) :
    Accepts (loop (fuel + 1)) c as c' ↔
      if (c.atEnd || c.peek.isSymbol ")") = true then as = [] ∧ c' = c
      else ∃ a mid, Accepts item c (some a) mid ∧
        if mid.peek.isSymbol "," = true then
          ∃ later, as = a :: later ∧ Accepts (loop fuel) mid.advance later c'
        else as = [a] ∧ c' = mid

/-- A loop that stops at a closing parenthesis and otherwise goes on behind an item in a given way
is one over items with commas, if that way is the right one. -/
lemma CommaLoop.of_round {item : Parser (Option α)} {loop : Nat → Parser (List α)}
    (goOn : Option α → Parser (List α) → Parser (List α))
    (hsome : ∀ {c c'}, ¬ Accepts item c none c') (hzero : loop 0 = pure [])
    (hsucc : ∀ fuel, loop (fuel + 1) = do
      if ← look fun cursor => cursor.atEnd || cursor.peek.isSymbol ")" then
        return []
      let found ← item
      goOn found (loop fuel))
    (hgoOn : ∀ {a p mid as c'}, c'.peek.isSymbol ")" = true →
      (Accepts (goOn (some a) p) mid as c' ↔
        if mid.peek.isSymbol "," = true then
          ∃ later, as = a :: later ∧ Accepts p mid.advance later c'
        else as = [a] ∧ c' = mid)) : CommaLoop item loop where
  zero {c c' as} := by rw [hzero, accepts_pure]
  succ {fuel c c' as} hclose := by
    rw [hsucc]
    simp only [accepts_look_bind, accepts_ite, accepts_pure]
    split
    · exact Iff.rfl
    · rw [accepts_bind]
      constructor
      · rintro ⟨found, mid, hitem, h⟩
        cases found with
        | none => exact absurd hitem hsome
        | some a => exact ⟨a, mid, hitem, (hgoOn hclose).mp h⟩
      · rintro ⟨a, mid, hitem, h⟩
        exact ⟨some a, mid, hitem, (hgoOn hclose).mpr h⟩

/-- The way in which a list goes on that reports whatever is neither a comma nor a parenthesis. -/
def goOnStrictly (fault : Fault) (found : Option α) (loop : Parser (List α)) : Parser (List α) := do
  if ← takeSymbol "," then
    let later ← loop
    return found.toList ++ later
  if ← atSymbol ")" then
    return found.toList
  report fault
  return found.toList

/-- A strict list that ends in front of a closing parenthesis goes on behind each comma, and without
a comma it is over. -/
lemma accepts_goOnStrictly_iff (fault : Fault) {a : α} {p : Parser (List α)} {mid c' : Cursor}
    {as : List α} (hclose : c'.peek.isSymbol ")" = true) :
    Accepts (goOnStrictly fault (some a) p) mid as c' ↔
      if mid.peek.isSymbol "," = true then ∃ later, as = a :: later ∧ Accepts p mid.advance later c'
      else as = [a] ∧ c' = mid := by
  simp only [goOnStrictly, accepts_takeSymbol_bind, accepts_atSymbol_bind, accepts_ite,
    accepts_pure, accepts_bind_pure, not_accepts_report, and_false, exists_false, if_true,
    Bool.false_eq_true, if_false, Option.toList_some, List.singleton_append]
  split
  · exact Iff.rfl
  · constructor
    · intro h
      split at h
      · exact h
      · exact h.elim
    · rintro ⟨rfl, rfl⟩
      rw [if_pos hclose]
      exact ⟨rfl, rfl⟩

/-- A loop over items with commas, given enough fuel, accepts what lies in front of a closing
parenthesis exactly if it is a list of items with commas.

**Proof sketch.** Induction on the fuel. No item begins with a closing parenthesis, so the loop
stops where the list does, and each item takes a token, so that the fuel lasts. -/
lemma CommaLoop.accepts_iff {item : Parser (Option α)} {loop : Nat → Parser (List α)}
    {reading : Reading α} (hloop : CommaLoop item loop)
    (hitem : item.Recognizes reading.option) (htakes : reading.Takes)
    (hhead : ∀ {t ts a rest}, reading (t :: ts) a rest → t.isSymbol ")" = false)
    (fuel : Nat) {ts : List Token} {n : Nat} {as : List α} {c' : Cursor}
    (hclose : c'.peek.isSymbol ")" = true) (hfuel : ts.length ≤ fuel) :
    Accepts (loop fuel) ⟨ts, n⟩ as c' ↔ ∃ rest, c' = ⟨rest, n⟩ ∧ reading.Separated ts as rest := by
  have hend : ∀ {ts a rest}, reading ts a rest →
      ((⟨ts, n⟩ : Cursor).atEnd || (⟨ts, n⟩ : Cursor).peek.isSymbol ")") = false := by
    intro ts a rest h
    cases ts with
    | nil => exact absurd rfl (htakes.ne_nil h)
    | cons t ts => simpa using hhead h
  induction fuel generalizing ts as with
  | zero =>
    obtain rfl : ts = [] := List.length_eq_zero_iff.mp (by omega)
    rw [hloop.zero]
    constructor
    · rintro ⟨rfl, rfl⟩
      exact ⟨[], rfl, .nil⟩
    · rintro ⟨rest, rfl, hsep⟩
      cases hsep with
      | nil => exact ⟨rfl, rfl⟩
      | last ha => exact absurd rfl (htakes.ne_nil ha)
      | more ha _ _ => exact absurd rfl (htakes.ne_nil ha)
  | succ fuel ih =>
    rw [hloop.succ hclose]
    constructor
    · intro h
      split at h
      · obtain ⟨rfl, rfl⟩ := h
        exact ⟨ts, rfl, .nil⟩
      · obtain ⟨a, mid, ha, h⟩ := h
        obtain ⟨mid, rfl, _, ⟨rfl⟩, hread⟩ := (hitem _ _ _ _).mp ha
        split at h
        · rename_i hcomma
          obtain ⟨comma, mid, rfl, hcomma⟩ := Cursor.exists_cons_of_isSymbol hcomma
          obtain ⟨later, rfl, h⟩ := h
          have hshort := htakes hread
          simp only [List.length_cons] at hshort
          obtain ⟨rest, rfl, hsep⟩ := (ih (by simp only [List.tail_cons]; omega)).mp h
          exact ⟨rest, rfl, .more hread hcomma hsep⟩
        · obtain ⟨rfl, rfl⟩ := h
          exact ⟨mid, rfl, .last hread⟩
    · rintro ⟨rest, rfl, hsep⟩
      cases hsep with
      | nil =>
        rw [if_pos (by simp [hclose])]
        exact ⟨rfl, rfl⟩
      | @last _ _ a ha =>
        rw [if_neg (Bool.eq_false_iff.mp (hend ha))]
        refine ⟨a, ⟨rest, n⟩, (hitem _ _ _ _).mpr ⟨rest, rfl, a, rfl, ha⟩, ?_⟩
        rw [if_neg (by simp [Token.isSymbol_ne hclose])]
        exact ⟨rfl, rfl⟩
      | @more _ mid _ comma a as ha hcomma hsep =>
        have hshort := htakes ha
        simp only [List.length_cons] at hshort
        rw [if_neg (Bool.eq_false_iff.mp (hend ha))]
        refine ⟨a, ⟨comma :: mid, n⟩, (hitem _ _ _ _).mpr ⟨_, rfl, a, rfl, ha⟩, ?_⟩
        rw [if_pos (by simpa using hcomma)]
        exact ⟨as, rfl, (ih (by simp only [List.tail_cons]; omega)).mpr ⟨rest, rfl, hsep⟩⟩

/-- A loop over items with commas and a required closing parenthesis behind it. -/
lemma CommaLoop.closed_iff {item : Parser (Option α)} {loop : Nat → Parser (List α)}
    {reading : Reading α} (hloop : CommaLoop item loop)
    (hitem : item.Recognizes reading.option) (htakes : reading.Takes)
    (hhead : ∀ {t ts a rest}, reading (t :: ts) a rest → t.isSymbol ")" = false)
    {g : List α → Bool → Parser β} {ts : List Token} {n : Nat} {b : β} {c' : Cursor}
    (hfail : ∀ {as c}, ¬ Accepts (g as false) c b c') :
    Accepts (fuelled loop >>= fun as => takeSymbol ")" >>= g as) ⟨ts, n⟩ b c' ↔
      ∃ as closing rest, reading.Separated ts as (closing :: rest) ∧
        closing.isSymbol ")" = true ∧ Accepts (g as true) ⟨rest, n⟩ b c' := by
  rw [accepts_bind]
  constructor
  · rintro ⟨as, ⟨mid, m⟩, has, h⟩
    rw [accepts_requireSymbol_iff hfail] at h
    obtain ⟨closing, rest, rfl, hclosing, h⟩ := h
    have hclose : (⟨closing :: rest, m⟩ : Cursor).peek.isSymbol ")" = true := hclosing
    obtain ⟨_, heq, hsep⟩ :=
      (hloop.accepts_iff hitem htakes hhead ts.length hclose (Nat.le_refl _)).mp has
    cases heq
    exact ⟨as, closing, rest, hsep, hclosing, h⟩
  · rintro ⟨as, closing, rest, hsep, hclosing, h⟩
    have hclose : (⟨closing :: rest, n⟩ : Cursor).peek.isSymbol ")" = true := hclosing
    refine ⟨as, ⟨closing :: rest, n⟩, ?_, ?_⟩
    · exact (hloop.accepts_iff hitem htakes hhead ts.length hclose (Nat.le_refl _)).mpr
        ⟨_, rfl, hsep⟩
    · rw [accepts_requireSymbol_iff hfail]
      exact ⟨closing, rest, rfl, hclosing, h⟩

end Parser

end DialogueScript
