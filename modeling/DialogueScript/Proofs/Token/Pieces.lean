import DialogueScript.Proofs.Token.Lines

set_option autoImplicit false

/-!
# Lexemes are pieces of their line

What the splitter finds on a line stands there as it is, in one piece, and only where such a piece
can stand: a chunk has no blank, parenthesis, comma or quote in it and does not begin with an equals
sign, and a quoted text has no quote in it. A line has no line feed in it and is cut at its first
comment, so no piece of it has either.

This holds of every text, well formed or not.

## Main definitions

* `DialogueScript.Lexeme.PieceOf` — pieces of a text.
* `DialogueScript.Lexeme.Mode.Within` — where in a text the splitter is.

## Main results

* `DialogueScript.Lexeme.pieceOf_of_mem_scanFrom` — the splitter finds pieces.
* `DialogueScript.Lexeme.isSolid_of_mem_ofLine` — what the chunks of a line look like.
* `DialogueScript.Lexeme.isSpelling_of_mem_ofLine` — what the quoted texts of a line look like.
-/

namespace DialogueScript

/-! ## Lines without comments -/

namespace Text

/-- A text without the blanks around it stands in that text in one piece. -/
lemma infix_trim (cs : List Char) : trim cs <:+: cs := by
  have hend : trimEnd (trimStart cs) <+: trimStart cs := by
    have hsuffix := List.dropWhile_suffix isBlank (l := (trimStart cs).reverse)
    rwa [← List.reverse_prefix, List.reverse_reverse] at hsuffix
  exact hend.isInfix.trans (List.dropWhile_suffix isBlank).isInfix

/-- A piece of a text without comments has no comment in it. -/
lemma hasNoComment_of_piece {a b : List Char} (h : a <:+: b) (hb : hasNoComment b = true) :
    hasNoComment a = true := by
  rw [hasNoComment, decide_eq_true_eq] at hb ⊢
  exact fun ha => hb (ha.trans h)

/-- There is no line feed in a line. -/
lemma lineFeed_notMem_of_mem_lines {cs line : List Char} (h : line ∈ lines cs) : '\n' ∉ line := by
  induction cs using line_induction with
  | hlast last hlast =>
    by_cases hne : last = []
    · subst hne
      cases h
    · rw [lines_of_not_mem hlast hne, List.mem_singleton] at h
      rwa [h]
  | hline first cs hfirst ih =>
    rw [lines_append_lineFeed_cons hfirst, List.mem_cons] at h
    rcases h with rfl | hlater
    · rw [closeLine]
      split
      · exact fun hmem => hfirst (List.dropLast_subset _ hmem)
      · exact hfirst
    · exact ih hlater

end Text

namespace Lexeme

/-- A line without its comment is the beginning of that line. -/
lemma prefix_cutComment (cs : List Char) : cutComment cs <+: cs := by
  fun_induction cutComment cs with
  | case1 => exact List.prefix_rfl
  | case2 => exact List.nil_prefix
  | case3 c cs _ ih => exact List.cons_prefix_cons.mpr ⟨rfl, ih⟩

/-- Where a line is cut no comment is left. -/
lemma hasNoComment_cutComment (cs : List Char) : Text.hasNoComment (cutComment cs) = true := by
  rw [Text.hasNoComment, decide_eq_true_eq]
  fun_induction cutComment cs with
  | case1 => decide
  | case2 => decide
  | case3 c cs hslashes ih =>
    rw [List.infix_cons_iff]
    rintro (hhere | hlater)
    · -- The second slash would stand at the beginning of what follows.
      obtain ⟨rfl, hnext⟩ := List.cons_prefix_cons.mp hhere
      obtain ⟨rest, hrest⟩ := hnext.trans (prefix_cutComment cs)
      exact hslashes rest rfl hrest.symm
    · exact ih hlater

/-! ## Pieces -/

/-- The characters that can stand in a chunk. -/
def isOrdinary (c : Char) : Bool :=
  !Text.isBlank c && !isPunctuation c && c != '"'

/-- The lexeme stands in the text in one piece, and only has characters in it that it can have. -/
def PieceOf (whole : List Char) : Lexeme → Prop
  | .symbol _ => True
  | .chunk text => text <:+: whole ∧ text ≠ [] ∧ (∀ c ∈ text, isOrdinary c = true) ∧
      text.head? ≠ some '='
  | .quoted text _ => text <:+: whole ∧ '"' ∉ text

/-- The splitter is somewhere in the text, with the rest ahead of it and behind it the unfinished
lexeme, of which only characters have been read that it can have. -/
def Mode.Within (whole rest : List Char) : Mode → Prop
  | .between => rest <:+ whole
  | .inChunk run => run.reverse ++ rest <:+ whole ∧ run ≠ [] ∧ (∀ c ∈ run, isOrdinary c = true) ∧
      run.getLast? ≠ some '='
  | .inQuotes run => run.reverse ++ rest <:+ whole ∧ '"' ∉ run

variable {whole rest run : List Char} {c : Char}

/-- What has been read of an unfinished lexeme stands in the text. -/
lemma infix_of_append_suffix (h : run.reverse ++ rest <:+ whole) : run.reverse <:+: whole :=
  (List.prefix_append _ _).isInfix.trans h.isInfix

/-- The chunk that is being read stands in the text in one piece. -/
lemma Mode.Within.chunk (h : (Mode.inChunk run).Within whole rest) :
    PieceOf whole (.chunk run.reverse) := by
  obtain ⟨hsuffix, hne, hchars, hlast⟩ := h
  refine ⟨infix_of_append_suffix hsuffix, by simpa using hne, ?_, by simpa using hlast⟩
  simpa using hchars

/-- The quoted text that is being read stands in the text in one piece. -/
lemma Mode.Within.quoted (h : (Mode.inQuotes run).Within whole rest) (closed : Bool) :
    PieceOf whole (.quoted run.reverse closed) :=
  ⟨infix_of_append_suffix h.1, by simpa using h.2⟩

/-- Behind the next character the splitter can be between two lexemes. -/
lemma Mode.Within.between {mode : Mode} (h : mode.Within whole (c :: rest)) :
    Mode.between.Within whole rest := by
  have hnext : c :: rest <:+ whole := by
    cases mode with
    | between => exact h
    | inChunk run => exact (List.suffix_append _ _).trans h.1
    | inQuotes run => exact (List.suffix_append _ _).trans h.1
  exact (List.suffix_cons c rest).trans hnext

/-- **The splitter finds pieces**: wherever it is in a text, all lexemes that it finds from there on
are pieces of the text.

**Proof sketch.** By induction on what is ahead, for every mode. A character either ends the
unfinished lexeme, which is then a piece, or becomes part of it. -/
lemma pieceOf_of_mem_scanFrom {mode : Mode} (hmode : mode.Within whole rest) :
    ∀ lexeme ∈ scanFrom mode rest, PieceOf whole lexeme := by
  induction rest generalizing mode with
  | nil =>
    cases mode with
    | between => simp [scanFrom]
    | inChunk run => simpa [scanFrom] using hmode.chunk
    | inQuotes run => simpa [scanFrom] using hmode.quoted false
  | cons c rest ih =>
    have hbetween := hmode.between
    have hquotes : (Mode.inQuotes []).Within whole rest := ⟨hbetween, List.not_mem_nil⟩
    cases mode with
    | between =>
      rw [scanFrom]
      split
      · exact ih hbetween
      split
      · exact List.forall_mem_cons.mpr ⟨trivial, ih hbetween⟩
      split
      · exact ih hquotes
      · next hblank hsymbol hquote =>
        simp only [isSymbolStart, Bool.or_eq_true, not_or] at hsymbol
        refine ih ⟨hmode, List.cons_ne_nil c [], ?_, ?_⟩
        · simp_all [isOrdinary]
        · simp_all
    | inChunk run =>
      rw [scanFrom]
      split
      · exact List.forall_mem_cons.mpr ⟨hmode.chunk, ih hbetween⟩
      split
      · exact List.forall_mem_cons.mpr
          ⟨hmode.chunk, List.forall_mem_cons.mpr ⟨trivial, ih hbetween⟩⟩
      split
      · exact List.forall_mem_cons.mpr ⟨hmode.chunk, ih hquotes⟩
      · next hblank hpunctuation hquote =>
        obtain ⟨hsuffix, hne, hchars, hlast⟩ := hmode
        have hc : isOrdinary c = true := by simp_all [isOrdinary]
        refine ih ⟨by simpa using hsuffix, List.cons_ne_nil c run,
          List.forall_mem_cons.mpr ⟨hc, hchars⟩, ?_⟩
        rwa [List.getLast?_cons_of_ne_nil hne]
    | inQuotes run =>
      rw [scanFrom]
      split
      · exact List.forall_mem_cons.mpr ⟨hmode.quoted true, ih hbetween⟩
      · next hquote =>
        refine ih ⟨by simpa using hmode.1, ?_⟩
        rw [List.mem_cons, not_or]
        exact ⟨fun heq => hquote (by simp [← heq]), hmode.2⟩

/-- The lexemes of a line are pieces of the line as it was cut. -/
lemma pieceOf_of_mem_ofLine {line : List Char} :
    ∀ lexeme ∈ ofLine line, PieceOf (Text.trim (cutComment line)) lexeme := by
  have hstart : Mode.between.Within (Text.trim (cutComment line)) (Text.trim (cutComment line)) :=
    List.suffix_rfl
  exact pieceOf_of_mem_scanFrom hstart

/-- A piece of a line stands in the line, and there is no comment in it. -/
lemma infix_and_hasNoComment {line text : List Char}
    (h : text <:+: Text.trim (cutComment line)) :
    text <:+: line ∧ Text.hasNoComment text = true := by
  have hcut := h.trans (Text.infix_trim _)
  exact ⟨hcut.trans (prefix_cutComment line).isInfix,
    Text.hasNoComment_of_piece hcut (hasNoComment_cutComment line)⟩

/-- The chunks of a line stay in one piece. -/
lemma isSolid_of_mem_ofLine {line text : List Char} (h : .chunk text ∈ ofLine line) :
    Text.isSolid text = true := by
  obtain ⟨hpiece, hne, hchars, hhead⟩ := pieceOf_of_mem_ofLine _ h
  have hcomment := (infix_and_hasNoComment hpiece).2
  have hall : text.all (fun c => !Text.isBlank c && !isPunctuation c && c != '"') = true :=
    List.all_eq_true.mpr hchars
  simp [Text.isSolid, hne, hall, hhead, hcomment]

/-- The quoted texts of a line can be spelled as strings. -/
lemma isSpelling_of_mem_ofLine {line text : List Char} {closed : Bool} (hline : '\n' ∉ line)
    (h : .quoted text closed ∈ ofLine line) :
    LiteralKind.isSpelling .string (String.ofList text) = true := by
  obtain ⟨hpiece, hquote⟩ := pieceOf_of_mem_ofLine _ h
  obtain ⟨hstands, hcomment⟩ := infix_and_hasNoComment hpiece
  have hchars : ∀ c ∈ text, c ≠ '"' ∧ c ≠ '\n' := fun c hc =>
    ⟨fun heq => hquote (heq ▸ hc), fun heq => hline (hstands.subset (heq ▸ hc))⟩
  simpa [LiteralKind.isSpelling, hcomment] using hchars

end Lexeme

end DialogueScript
