import DialogueScript.Proofs.Parser.Progress
import Mathlib.Data.List.TakeWhile

set_option autoImplicit false

/-!
# The end of the input

A token list may end with an end token, end without one, or go on behind one. The parsing machine
meets these cases in different places: behind the last token it makes up an end token, it looks one
token further to tell an assignment from a call, and it stops advancing at any end token.

What a machine reads of a token list is the tokens before the end and the line on which the input
ends. From any state, two lists that agree in these make the machine do the same, whatever function
it runs: it follows the same parser from the same cursor, and the cursor it leaves says where it is.

## Main definitions

* `DialogueScript.Token.lastLine` — the line of the last token.
* `DialogueScript.ParsedAlike` — two token lists give the same, by the parser and by the machine.

## Main results

* `DialogueScript.Cursor.start_of_not_ended`, `DialogueScript.Cursor.start_of_ended` — what is read
  of a list without an end token, and of one with an end token somewhere.
* `DialogueScript.Machine.Follows.alike` — two lists of which the same is read.
* `DialogueScript.parsed_alike_at_end` — the end of the input may be given in any way.
-/

namespace DialogueScript

/-- The line of the last token; without tokens, the first line. -/
def Token.lastLine (ts : List Token) : Nat :=
  (ts.getLast?.map Token.line).getD 1

namespace Cursor

variable {ts : List Token}

/-- Among tokens none of which ends the input, the search for the end runs through. -/
lemma search_of_not_ended (h : ∀ t ∈ ts, t.kind ≠ .eof) :
    (∀ t ∈ ts, (t.kind != .eof) = true) ∧ ts.find? (fun t => t.kind == .eof) = none :=
  ⟨fun t ht => bne_iff_ne.mpr (h t ht), by simpa using h⟩

/-- Without an end token, all tokens are read, and the input ends on the line of the last one. -/
lemma start_of_not_ended (h : ∀ t ∈ ts, t.kind ≠ .eof) : start ts = ⟨ts, Token.lastLine ts⟩ := by
  obtain ⟨hkinds, hfind⟩ := search_of_not_ended h
  rw [start, endLineOf, hfind, List.takeWhile_eq_self_iff.mpr hkinds, Token.lastLine]
  cases ts.getLast? <;> rfl

/-- With an end token, the tokens before it are read, and the input ends on its line. -/
lemma start_of_ended (h : ∀ t ∈ ts, t.kind ≠ .eof) {e : Token} (he : e.kind = .eof)
    (junk : List Token) : start (ts ++ e :: junk) = ⟨ts, e.line⟩ := by
  obtain ⟨hkinds, hfind⟩ := search_of_not_ended h
  have htake : (e :: junk).takeWhile (fun t => t.kind != .eof) = [] :=
    List.takeWhile_cons_of_neg (by simp [he])
  have hends : (e :: junk).find? (fun t => t.kind == .eof) = some e :=
    List.find?_cons_of_pos (beq_iff_eq.mpr he)
  rw [start, endLineOf, List.find?_append, hfind, Option.none_or, hends,
    List.takeWhile_append_of_pos hkinds, htake, List.append_nil]

end Cursor

namespace Machine

variable {a b : List Token} {α : Type} {m m' : Machine}

/-- The tokens ahead are some of those that the parser reads. -/
lemma cursor_eq (tokens : List Token) (m : Machine) :
    m.cursor tokens =
      ⟨(Cursor.start tokens).tokens.drop m.position, (Cursor.start tokens).endLine⟩ := by
  rw [← cursor_start]
  rfl

/-- The end is behind the tokens that the parser reads. -/
lemma stop_eq (tokens : List Token) : stop tokens = (Cursor.start tokens).tokens.length := by
  rw [← cursor_start, length_cursor]
  rfl

/-- **Two lists of which the same is read** make a machine do the same: it gives the same result and
comes to the same state.

**Proof sketch.** On both lists the machine follows the same parser from the same cursor. What the
parser leaves says how far both machines have come, since none of them is past the end; depth and
reports are what they were before, and what the parser adds. -/
lemma Follows.alike {step other : Nat → MachineM α} {p : Parser α} (h : Follows a step p m)
    (h' : Follows b other p m) (hread : Cursor.start a = Cursor.start b)
    (hinside : m.position ≤ stop a) :
    ∃ m', Gives step m (p (m.cursor a)).value m' ∧ Gives other m (p (m.cursor a)).value m' ∧
      m'.errors = m.errors ++ (p (m.cursor a)).errors := by
  have hcursor : m.cursor b = m.cursor a := by rw [cursor_eq, cursor_eq, hread]
  have hstop : stop b = stop a := by rw [stop_eq, stop_eq, hread]
  obtain ⟨m₁, hgives, hagrees⟩ := h
  obtain ⟨m₂, hgives', hagrees'⟩ := h'
  rw [hcursor] at hgives' hagrees'
  have hposition : m₂.position = m₁.position := by
    have hlength := length_cursor a m₁
    have hlength' := length_cursor b m₂
    have hle := (hagrees.moves.position_le hinside).2
    have hle' := (hagrees'.moves.position_le (hstop ▸ hinside)).2
    rw [hagrees.cursor] at hlength
    rw [hagrees'.cursor] at hlength'
    omega
  have hsame : m₂ = m₁ := by
    obtain ⟨position, depth, errors⟩ := m₁
    obtain ⟨position', depth', errors'⟩ := m₂
    obtain rfl : position' = position := hposition
    obtain rfl : depth' = depth := hagrees'.depth.trans hagrees.depth.symm
    obtain rfl : errors' = errors := hagrees'.errors.trans hagrees.errors.symm
    rfl
  exact ⟨m₁, hgives, hsame ▸ hgives', hagrees.errors⟩

end Machine

/-- Two token lists give the same. -/
structure ParsedAlike (a b : List Token) : Prop where
  /-- The parser finds the same statements and faults in them. -/
  parser : parseTokens a = parseTokens b
  /-- The machine comes to the same end on them, with these statements and these reports. -/
  machine : ∃ m enough,
    (∀ fuel, enough ≤ fuel →
      Machine.parse a fuel = some ((parseTokens a).1, m) ∧
        Machine.parse b fuel = some ((parseTokens a).1, m)) ∧
      m.errors = (parseTokens a).2

/-- Token lists of which the same is read give the same. -/
lemma ParsedAlike.of_start {a b : List Token} (h : Cursor.start a = Cursor.start b) :
    ParsedAlike a b := by
  have ha := Machine.implements_program a 0 Machine.start (Nat.zero_le _) rfl
  have hb := Machine.implements_program b 0 Machine.start (Nat.zero_le _) rfl
  obtain ⟨m, ⟨first, hfirst⟩, ⟨second, hsecond⟩, herrors⟩ := ha.alike hb h (Nat.zero_le _)
  rw [Machine.cursor_start] at hfirst hsecond herrors
  refine ⟨by rw [parseTokens, parseTokens, h], m, max first second, fun fuel hfuel => ?_, herrors⟩
  exact ⟨hfirst fuel (Nat.le_trans (Nat.le_max_left _ _) hfuel),
    hsecond fuel (Nat.le_trans (Nat.le_max_right _ _) hfuel)⟩

/-- **The end of the input may be given in any way.** Take tokens none of which ends the input. They
give the same statements and the same reports as with an end token behind them on the line of the
last of them, or on the first line if there are none. And with any end token behind them, whatever
else follows is not looked at. This holds of the parser and of the machine, which comes to its end
in all these cases.

**Proof sketch.** In all cases the tokens read are the given ones, and the input ends on the same
line. -/
theorem parsed_alike_at_end (ts : List Token) (h : ∀ t ∈ ts, t.kind ≠ .eof) :
    ParsedAlike ts (ts ++ [Token.endOfInput (Token.lastLine ts)]) ∧
      ∀ e : Token, e.kind = .eof → ∀ junk : List Token,
        ParsedAlike (ts ++ [e] ++ junk) (ts ++ [e]) := by
  refine ⟨.of_start ?_, fun e he junk => .of_start ?_⟩
  · rw [Cursor.start_of_not_ended h, Cursor.start_of_ended h rfl]
    rfl
  · rw [List.append_assoc, List.singleton_append, Cursor.start_of_ended h he,
      Cursor.start_of_ended h he]

/-- A name as the last token, so that the machine looks past the end to tell whether it is assigned
to. What stands behind the end token would make it an assignment. -/
theorem parsed_alike_at_end_name :
    let ts : List Token := [⟨.newline, "", 2⟩, ⟨.identifier, "x", 3⟩]
    let e : Token := ⟨.eof, "", 7⟩
    let junk : List Token := [⟨.symbol, "=", 7⟩, ⟨.number, "1", 7⟩]
    (∀ t ∈ ts, t.kind ≠ .eof) ∧
      parseTokens ts = parseTokens (ts ++ [Token.endOfInput 3]) ∧
        e.kind = .eof ∧ ParsedAlike (ts ++ [e] ++ junk) (ts ++ [e]) ∧
          (parseTokens (ts ++ [e])).2 = [⟨7, .callStatementOpening⟩] := by
  intro ts e junk
  have hopen : ∀ t ∈ ts, t.kind ≠ .eof := by decide
  obtain ⟨hended, hjunk⟩ := parsed_alike_at_end ts hopen
  exact ⟨hopen, hended.parser, rfl, hjunk e rfl junk, by decide⟩

end DialogueScript
