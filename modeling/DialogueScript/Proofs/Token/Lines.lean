import DialogueScript.Proofs.Printing.Lexing
import Mathlib.Data.List.Count
import Mathlib.Data.List.TakeWhile
import Mathlib.Tactic.Common

set_option autoImplicit false

/-!
# Sources line by line

A text either has no line feed in it or begins with a line in front of one, so that facts about
sources can be proved one line at a time. What stands on a line does not depend on how the line
ends: a carriage return in front of the line feed is part of the line's end, and without the line
feed it is a blank at the end of the line. So a line feed behind a source changes nothing but the
line on which the input ends, and what stands behind that line feed is read on its own.

## Main definitions

* `DialogueScript.Text.closeLine` — a line in front of a line feed.
* `DialogueScript.Text.onLines` — what is found on some lines, by their numbers.

## Main results

* `DialogueScript.Text.line_induction` — induction over the lines of a text.
* `DialogueScript.Text.lines_append` — the lines of two texts with a line feed in between.
* `DialogueScript.Lexeme.ofLine_closeLine` — what stands on a line does not depend on its end.
* `DialogueScript.Text.onLines_lines_concat` — a line feed at the end of a text.
* `DialogueScript.Text.onLines_append_lineFeed` — two texts with a line feed in between.
-/

namespace DialogueScript

/-! ## Lines of a text -/

namespace Text

/-- A line in front of a line feed: a carriage return at its end belongs to the end of the line. -/
def closeLine (line : List Char) : List Char :=
  if line.getLast? = some '\r' then line.dropLast else line

/-- **Induction over the lines of a text**: a text without a line feed is a last line, and every
other text is a line with a line feed and more text behind it. -/
lemma line_induction {P : List Char → Prop} (hlast : ∀ line, '\n' ∉ line → P line)
    (hline : ∀ line cs, '\n' ∉ line → P cs → P (line ++ '\n' :: cs)) (cs : List Char) : P cs := by
  by_cases h : '\n' ∈ cs
  · obtain ⟨line, later, rfl, hnot⟩ := List.eq_append_cons_of_mem h
    have hshort : later.length < (line ++ '\n' :: later).length := by
      simp only [List.length_append, List.length_cons]
      omega
    exact hline line later hnot (line_induction hlast hline later)
  · exact hlast cs h
termination_by cs.length

/-- A text without a line feed is a line of its own, unless it is empty. -/
lemma lines_of_not_mem {line : List Char} (hline : '\n' ∉ line) (hne : line ≠ []) :
    lines line = [line] := by
  induction line with
  | nil => exact absurd rfl hne
  | cons c line ih =>
    simp only [List.mem_cons, not_or] at hline
    rw [lines]
    · cases line with
      | nil => rfl
      | cons d line => rw [ih hline.2 (List.cons_ne_nil d line), consLine]
    · rintro more rfl rfl
      simp at hline
    · exact fun h => hline.1 h.symm

/-- A line feed ends the first line. -/
lemma lines_append_lineFeed_cons {line : List Char} (hline : '\n' ∉ line) (cs : List Char) :
    lines (line ++ '\n' :: cs) = closeLine line :: lines cs := by
  induction line with
  | nil => rw [List.nil_append, lines]; rfl
  | cons c line ih =>
    simp only [List.mem_cons, not_or] at hline
    cases line with
    | nil =>
      by_cases hc : c = '\r'
      · subst hc
        rw [List.cons_append, List.nil_append, lines]
        rfl
      · rw [List.cons_append, lines, ih List.not_mem_nil]
        · simp [closeLine, consLine, hc]
        · exact fun more h => absurd h hc
        · exact fun h => hline.1 h.symm
    | cons d line =>
      have hclose : closeLine (c :: d :: line) = c :: closeLine (d :: line) := by
        simp only [closeLine, List.getLast?_cons_cons, List.dropLast_cons_cons]
        split <;> rfl
      rw [List.cons_append, lines, ih hline.2, consLine, hclose]
      · rintro more rfl hmore
        obtain ⟨rfl, -⟩ := List.cons.inj hmore
        simp at hline
      · exact fun h => hline.1 h.symm

/-- **The lines of two texts with a line feed in between** are the lines of both, the first of them
read with that line feed at its end. -/
lemma lines_append (a b : List Char) : lines (a ++ '\n' :: b) = lines (a ++ ['\n']) ++ lines b := by
  induction a using line_induction with
  | hlast line hline =>
    rw [lines_append_lineFeed_cons hline, lines_append_lineFeed_cons hline]
    rfl
  | hline line cs hline ih =>
    rw [List.append_assoc, List.append_assoc, List.cons_append, List.cons_append,
      lines_append_lineFeed_cons hline, lines_append_lineFeed_cons hline, ih, List.cons_append]

/-- A text with a line feed at its end has as many lines as line feeds. -/
lemma length_lines_concat (cs : List Char) :
    (lines (cs ++ ['\n'])).length = cs.count '\n' + 1 := by
  induction cs using line_induction with
  | hlast line hline =>
    rw [lines_append_lineFeed_cons hline, List.count_eq_zero_of_not_mem hline]
    rfl
  | hline line cs hline ih =>
    rw [List.append_assoc, List.cons_append, lines_append_lineFeed_cons hline, List.length_cons, ih,
      List.count_append, List.count_eq_zero_of_not_mem hline, List.count_cons_self]
    omega

/-! ## Blanks at the ends -/

/-- Blanks in front of a text are cut off. -/
lemma trim_append_left {blanks : List Char} (h : ∀ c ∈ blanks, isBlank c = true)
    (cs : List Char) : trim (blanks ++ cs) = trim cs := by
  rw [trim, trim, trimStart, trimStart, List.dropWhile_append_of_pos h]

/-- Blanks behind a text are cut off. -/
lemma trim_append_right {blanks : List Char} (h : ∀ c ∈ blanks, isBlank c = true)
    (cs : List Char) : trim (cs ++ blanks) = trim cs := by
  have hend : ∀ cs, trimEnd (cs ++ blanks) = trimEnd cs := by
    intro cs
    rw [trimEnd, trimEnd, List.reverse_append,
      List.dropWhile_append_of_pos fun c hc => h c (List.mem_reverse.mp hc)]
  induction cs with
  | nil =>
    have hnil : trimStart blanks = [] := List.dropWhile_eq_nil_iff.mpr h
    rw [List.nil_append, trim, hnil]
    rfl
  | cons c cs ih =>
    by_cases hc : isBlank c = true
    · have hdrop : ∀ ds, trim (c :: ds) = trim ds := fun ds => by
        rw [trim, trim, trimStart, trimStart, List.dropWhile_cons_of_pos hc]
      rw [List.cons_append, hdrop, hdrop, ih]
    · have hkeep : ∀ ds, trim (c :: ds) = trimEnd (c :: ds) := fun ds => by
        rw [trim, trimStart, List.dropWhile_cons_of_neg hc]
      rw [List.cons_append, hkeep, hkeep, ← List.cons_append, hend]

end Text

namespace Lexeme

/-- One more character at the end of a line is cut off with a comment or is kept. -/
lemma cutComment_concat {c : Char} (hc : c ≠ '/') (cs : List Char) :
    cutComment (cs ++ [c]) = cutComment cs ∨ cutComment (cs ++ [c]) = cutComment cs ++ [c] := by
  fun_induction cutComment cs with
  | case1 => exact .inr (by simp [cutComment])
  | case2 more => exact .inl (by simp [cutComment])
  | case3 d cs hslashes ih =>
    have hcut : cutComment (d :: (cs ++ [c])) = d :: cutComment (cs ++ [c]) := by
      rw [cutComment]
      rintro more rfl hmore
      cases cs with
      | nil => exact hc (List.cons.inj hmore).1
      | cons e cs =>
        obtain ⟨rfl, -⟩ := List.cons.inj hmore
        exact hslashes cs rfl rfl
    rw [List.cons_append, hcut]
    rcases ih with ih | ih
    · exact .inl (by rw [ih])
    · exact .inr (by rw [ih]; rfl)

/-- **What stands on a line does not depend on how the line ends.** -/
lemma ofLine_closeLine (line : List Char) : ofLine (Text.closeLine line) = ofLine line := by
  rw [Text.closeLine]
  split
  · rename_i hlast
    obtain ⟨line, rfl⟩ := List.getLast?_eq_some_iff.mp hlast
    have hblank : ∀ c ∈ ['\r'], Text.isBlank c = true :=
      List.forall_mem_singleton.mpr (by decide)
    rw [List.dropLast_concat, ofLine, ofLine]
    rcases cutComment_concat (show '\r' ≠ '/' by decide) line with h | h
    · rw [h]
    · rw [h, Text.trim_append_right hblank]
  · rfl

end Lexeme

/-! ## Tokens and reports of lines -/

namespace Text

variable {α β : Type}

/-- What is found on some lines, one behind the other; the first line has the given number. -/
def onLines (f : Nat → β → List α) : Nat → List β → List α
  | _, [] => []
  | n, line :: later => f n line ++ onLines f (n + 1) later

/-- What is found on lines stands in front of what is found on the lines behind them. -/
lemma onLines_append {f : Nat → β → List α} (n : Nat) (a b : List β) :
    onLines f n (a ++ b) = onLines f n a ++ onLines f (n + a.length) b := by
  induction a generalizing n with
  | nil => rfl
  | cons line a ih =>
    rw [List.cons_append, onLines, ih, onLines, List.append_assoc, List.length_cons,
      Nat.add_assoc, Nat.add_comm 1]

/-- What is found on lines that are made from others can be found on the others directly. -/
lemma onLines_map {γ : Type} {f : Nat → β → List α} (g : γ → β) (n : Nat) (lines : List γ) :
    onLines f n (lines.map g) = onLines (fun n line => f n (g line)) n lines := by
  induction lines generalizing n with
  | nil => rfl
  | cons line later ih => rw [List.map_cons, onLines, onLines, ih]

/-- Nothing is found on some lines if nothing is found on any line. -/
lemma onLines_eq_nil {f : Nat → β → List α} (h : ∀ n line, f n line = []) (n : Nat)
    (lines : List β) : onLines f n lines = [] := by
  induction lines generalizing n with
  | nil => rfl
  | cons line later ih => rw [onLines, h, ih, List.nil_append]

/-- **A line feed at the end of a text** changes nothing if empty lines hold nothing and the ends of
lines do not matter. -/
lemma onLines_lines_concat {f : Nat → List Char → List α} (hnil : ∀ n, f n [] = [])
    (hclose : ∀ n line, f n (closeLine line) = f n line) (n : Nat) (cs : List Char) :
    onLines f n (lines (cs ++ ['\n'])) = onLines f n (lines cs) := by
  induction cs using line_induction generalizing n with
  | hlast line hline =>
    rw [lines_append_lineFeed_cons hline, onLines, hclose]
    by_cases hne : line = []
    · subst hne
      rw [hnil]
      rfl
    · rw [lines_of_not_mem hline hne, onLines]
      rfl
  | hline line cs hline ih =>
    rw [List.append_assoc, List.cons_append, lines_append_lineFeed_cons hline,
      lines_append_lineFeed_cons hline, onLines, onLines, ih]

/-- **Two texts with a line feed in between**: what is found on the lines of the second stands
behind what is found on those of the first, numbered from the next line on. -/
lemma onLines_append_lineFeed {f : Nat → List Char → List α} (hnil : ∀ n, f n [] = [])
    (hclose : ∀ n line, f n (closeLine line) = f n line) (n : Nat) (a b : List Char) :
    onLines f n (lines (a ++ '\n' :: b)) =
      onLines f n (lines a) ++ onLines f (n + (a.count '\n' + 1)) (lines b) := by
  rw [lines_append, onLines_append, onLines_lines_concat hnil hclose, length_lines_concat]

end Text

/-- The tokens of a line do not depend on how the line ends. -/
lemma Token.ofLine_closeLine (n : Nat) (line : List Char) :
    Token.ofLine n (Text.closeLine line) = Token.ofLine n line := by
  simp only [Token.ofLine, Lexeme.ofLine_closeLine]

/-- The reports on a line do not depend on how the line ends. -/
lemma ParseError.ofLine_closeLine (n : Nat) (line : List Char) :
    ParseError.ofLine n (Text.closeLine line) = ParseError.ofLine n line := by
  simp only [ParseError.ofLine, Lexeme.ofLine_closeLine]

namespace Lexed

/-- Behind the tokens of some lines stands the end of the input. -/
lemma ofLines_eq (n : Nat) (lines : List (List Char)) :
    ofLines n lines =
      ⟨Text.onLines Token.ofLine n lines ++ [Token.endOfInput (n + lines.length)],
        Text.onLines ParseError.ofLine n lines⟩ := by
  induction lines generalizing n with
  | nil => rfl
  | cons line later ih =>
    rw [ofLines, ih]
    simp only [Text.onLines, List.append_assoc, List.length_cons, Nat.add_assoc, Nat.add_comm 1]

/-- The tokens of a source are those of its lines and the end of the input. -/
lemma tokens_ofSource (source : String) :
    (ofSource source).tokens = Text.onLines Token.ofLine 1 (Text.lines source.toList) ++
      [Token.endOfInput (1 + (Text.lines source.toList).length)] := by
  rw [ofSource, ofLines_eq]

/-- The reports on a source are those on its lines. -/
lemma errors_ofSource (source : String) :
    (ofSource source).errors = Text.onLines ParseError.ofLine 1 (Text.lines source.toList) := by
  rw [ofSource, ofLines_eq]

end Lexed

end DialogueScript
