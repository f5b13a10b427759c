import DialogueScript.Proofs.Token.Lines

set_option autoImplicit false

/-!
# Items with blanks in between

A line is written as *items* with *gaps* in front of them, between them and behind them, and
perhaps with a comment at its end. An item is a symbol, a run of characters that stays in one
piece, or a text that is put in quotes; a gap is any run of blanks. Whatever the gaps and comments
are, reading the lines gives back the items, each as one token with just the text that was written.

That the items can be written and the gaps keep them apart is part of their types.

## Main definitions

* `DialogueScript.Item`, `DialogueScript.Gap` — what is written, and what keeps it apart.
* `DialogueScript.SpacedLine` — a line of them, with `DialogueScript.SpacedLine.source` and
  `DialogueScript.SpacedLine.tokens`.

## Main results

* `DialogueScript.SpacedLine.ofLine_source` — the lexemes of a line are those of its items.
* `DialogueScript.Lexed.ofSource_spaced` — reading gives back what was written.
-/

namespace DialogueScript

open Lexeme

/-! ## Items and gaps -/

/-- What keeps two items apart: blanks, at least one, that do not end the line. -/
structure Gap where
  /-- The blanks. -/
  chars : List Char
  /-- There is one. -/
  ne_nil : chars ≠ []
  /-- They are blanks. -/
  isBlank : ∀ c ∈ chars, Text.isBlank c = true
  /-- They stand on one line. -/
  noLineEnd : '\n' ∉ chars

/-- What can be written on a line. -/
inductive Item
  /-- A symbol. -/
  | symbol (c : Char) (hc : c ∈ ['(', ')', ',', '='])
  /-- A run of characters that stays in one piece. -/
  | chunk (text : List Char) (htext : Text.isSolid text = true)
  /-- A text, which is put in quotes. -/
  | quotation (content : List Char) (hquote : '"' ∉ content) (hline : '\n' ∉ content)
      (hcomment : Text.hasNoComment content = true)

namespace Item

/-- An item as it is written. -/
def source : Item → List Char
  | symbol c _ => [c]
  | chunk text _ => text
  | quotation content _ _ _ => '"' :: content ++ ['"']

/-- The token that an item is on a line with the given number. -/
def token (n : Nat) : Item → Token
  | symbol c _ => ⟨.symbol, String.ofList [c], n⟩
  | chunk text _ => Token.ofChunk n text
  | quotation content _ _ _ => ⟨.string, String.ofList content, n⟩

/-- The lexeme that an item is. -/
def lexeme : Item → Lexeme
  | symbol c _ => .symbol c
  | chunk text _ => .chunk text
  | quotation content _ _ _ => .quoted content true

/-- The token of an item is the token of its lexeme. -/
lemma ofLexeme_lexeme (n : Nat) (item : Item) : Token.ofLexeme n item.lexeme = item.token n := by
  cases item <;> rfl

/-- No item is a quoted text without its closing quote. -/
lemma isUnclosed_lexeme (item : Item) : item.lexeme.isUnclosed = false := by
  cases item <;> rfl

/-- A symbol is read on its own, whatever stands behind it. -/
lemma spells_symbol {c : Char} (hc : c ∈ ['(', ')', ',', '=']) : Spells [c] [.symbol c] := by
  obtain ⟨hblank, hstart, hline⟩ :
      Text.isBlank c = false ∧ isSymbolStart c = true ∧ c ≠ '\n' := by
    simp only [List.mem_cons, List.not_mem_nil, or_false] at hc
    rcases hc with rfl | rfl | rfl | rfl <;> decide
  refine ⟨fun more _ => ?_, rfl, List.isChain_singleton c, ?_, ⟨c, rfl, hblank⟩, ⟨c, rfl, hblank⟩⟩
  · rw [List.singleton_append, scan, scanFrom, if_neg (by simp [hblank]), if_pos hstart]
    rfl
  · simpa using hline.symm

/-- An item spells its lexeme. -/
lemma spells (item : Item) : Spells item.source [item.lexeme] := by
  cases item with
  | symbol c hc => exact spells_symbol hc
  | chunk text htext => exact spells_chunk htext
  | quotation content hquote hline hcomment =>
    refine spells_quoted (fun c hc => ⟨?_, ?_⟩) hcomment
    · rintro rfl
      exact hquote hc
    · rintro rfl
      exact hline hc

end Item

namespace Gap

/-- There is no slash between items. -/
lemma noSlash (gap : Gap) : '/' ∉ gap.chars := by
  intro h
  exact absurd (gap.isBlank _ h) (by decide)

/-- Blanks give no lexeme. -/
lemma scan_append (gap : Gap) (more : List Char) : scan (gap.chars ++ more) = scan more := by
  have hskip : ∀ cs : List Char, (∀ c ∈ cs, Text.isBlank c = true) →
      scan (cs ++ more) = scan more := by
    intro cs hcs
    induction cs with
    | nil => rfl
    | cons c cs ih =>
      rw [List.cons_append, scan, scanFrom, if_pos (hcs c List.mem_cons_self)]
      exact ih fun d hd => hcs d (List.mem_cons_of_mem _ hd)
  exact hskip gap.chars gap.isBlank

/-- A gap ends a chunk in front of it. -/
lemma delimits (gap : Gap) : Delimits gap.chars [] where
  scan_append more := gap.scan_append more
  head := by
    obtain ⟨c, cs, hcs⟩ := List.exists_cons_of_ne_nil gap.ne_nil
    exact ⟨c, by simp [hcs], .inl (gap.isBlank c (by simp [hcs]))⟩
  closed := rfl
  noSlash := gap.noSlash
  noLineEnd := gap.noLineEnd

end Gap

/-! ## Lines -/

/-- A line of items, each with a gap in front of it, with a last gap and perhaps a comment. -/
structure SpacedLine where
  /-- The items, and what stands in front of them. -/
  items : List (Gap × Item)
  /-- What stands behind the last item. -/
  last : Gap
  /-- The text of the comment, if there is one. -/
  comment : Option { cs : List Char // '\n' ∉ cs }

namespace SpacedLine

/-- Items with gaps in front of them. -/
def itemsSource (items : List (Gap × Item)) : List Char :=
  items.flatMap fun spaced => spaced.1.chars ++ spaced.2.source

/-- A comment with the slashes that begin it; without one there is nothing. -/
def commentSource : Option { cs : List Char // '\n' ∉ cs } → List Char
  | none => []
  | some text => '/' :: '/' :: text.val

/-- A line as it is written. -/
def source (line : SpacedLine) : List Char :=
  itemsSource line.items ++ (line.last.chars ++ commentSource line.comment)

/-- The tokens of a line with the given number: those of its items, and a newline token if the text
of the first is `global` or `local`. -/
def tokens (n : Nat) (line : SpacedLine) : List Token :=
  let found := line.items.map fun spaced => spaced.2.token n
  if ∃ first ∈ found.head?, first.text = "global" ∨ first.text = "local" then
    found ++ [⟨.newline, "", n⟩]
  else found

end SpacedLine

/-! ## Reading a line -/

namespace Lexeme

/-- In front of the place where a comment could begin, nothing is cut off. -/
lemma cutComment_append {a : List Char} (ha : a.IsChain NoSlashes)
    (hlast : ∀ c ∈ a.getLast?, c ≠ '/') (b : List Char) :
    cutComment (a ++ b) = a ++ cutComment b := by
  induction a with
  | nil => rfl
  | cons c a ih =>
    have hlater : ∀ d ∈ a.getLast?, d ≠ '/' := by
      intro d hd
      cases a with
      | nil => simp at hd
      | cons e a => exact hlast d (by rwa [List.getLast?_cons_cons])
    rw [List.cons_append, cutComment, ih ha.tail hlater]
    · rfl
    · rintro more rfl hmore
      cases a with
      | nil => exact hlast '/' rfl rfl
      | cons e a =>
        obtain ⟨rfl, -⟩ := List.cons.inj hmore
        exact (List.isChain_cons_cons.mp ha).1 ⟨rfl, rfl⟩

/-- Blanks and a comment behind a text without comments are cut off from it. -/
lemma cutComment_gap_append {cs : List Char} (hcs : cs.IsChain NoSlashes) (gap : Gap)
    (comment : Option { cs : List Char // '\n' ∉ cs }) :
    cutComment (cs ++ (gap.chars ++ SpacedLine.commentSource comment)) = cs ++ gap.chars := by
  have hchain : (cs ++ gap.chars).IsChain NoSlashes := by
    refine List.isChain_append.mpr ⟨hcs, isChain_of_not_mem gap.noSlash, ?_⟩
    rintro c - d hd ⟨-, rfl⟩
    exact gap.noSlash (List.mem_of_head? hd)
  have hlast : ∀ c ∈ (cs ++ gap.chars).getLast?, c ≠ '/' := by
    rintro c hc rfl
    rw [List.getLast?_append_of_ne_nil _ gap.ne_nil] at hc
    exact gap.noSlash (List.mem_of_getLast? hc)
  have hcomment : cutComment (SpacedLine.commentSource comment) = [] := by
    cases comment <;> rfl
  rw [← List.append_assoc, cutComment_append hchain hlast, hcomment, List.append_nil]

end Lexeme

namespace SpacedLine

/-- Items one behind the other, with gaps in between, spell their lexemes. -/
lemma spells_items (item : Item) (later : List (Gap × Item)) :
    Spells (item.source ++ itemsSource later)
      (item.lexeme :: later.map fun spaced => spaced.2.lexeme) := by
  induction later generalizing item with
  | nil => simpa [itemsSource] using item.spells
  | cons spaced later ih =>
    obtain ⟨gap, next⟩ := spaced
    have hjoin := item.spells.join gap.delimits (ih next)
    simpa [itemsSource] using hjoin

/-- **A line is read as its items**, whatever the gaps and the comment are.

**Proof sketch.** A comment is cut off behind the last gap, since the items have none in them and no
gap has a slash. The first and the last gap are blanks at the ends of the line. What remains spells
the items (`spells_items`). -/
lemma ofLine_source (line : SpacedLine) :
    Lexeme.ofLine line.source = line.items.map fun spaced => spaced.2.lexeme := by
  obtain ⟨items, last, comment⟩ := line
  cases items with
  | nil =>
    have hcut := cutComment_gap_append List.IsChain.nil last comment
    rw [List.nil_append, List.nil_append] at hcut
    have htrim := Text.trim_append_right last.isBlank []
    rw [List.nil_append] at htrim
    rw [source, itemsSource, List.flatMap_nil, List.nil_append, Lexeme.ofLine, hcut, htrim]
    rfl
  | cons spaced later =>
    obtain ⟨gap, item⟩ := spaced
    have hspells := spells_items item later
    have hchain : (gap.chars ++ (item.source ++ itemsSource later)).IsChain NoSlashes := by
      refine List.isChain_append.mpr ⟨isChain_of_not_mem gap.noSlash, hspells.noComment, ?_⟩
      rintro c hc d - ⟨rfl, -⟩
      exact gap.noSlash (List.mem_of_getLast? hc)
    have hsource : source ⟨(gap, item) :: later, last, comment⟩ =
        (gap.chars ++ (item.source ++ itemsSource later)) ++
          (last.chars ++ commentSource comment) := by
      simp [source, itemsSource]
    have hread := hspells.ofLine_eq
    rw [Lexeme.ofLine, cutComment_eq_self hspells.noComment] at hread
    rw [hsource, Lexeme.ofLine, cutComment_gap_append hchain, List.append_assoc,
      Text.trim_append_left gap.isBlank, Text.trim_append_right last.isBlank, hread, List.map_cons]

/-- The tokens of a line are those of its items. -/
lemma ofLine_source_tokens (n : Nat) (line : SpacedLine) :
    Token.ofLine n line.source = line.tokens n := by
  have hfound : (Lexeme.ofLine line.source).map (Token.ofLexeme n) =
      line.items.map fun spaced => spaced.2.token n := by
    rw [ofLine_source, List.map_map]
    exact List.map_congr_left fun spaced _ => spaced.2.ofLexeme_lexeme n
  have hstarts : ∀ found : List Token, Token.startsDeclaration found = true ↔
      ∃ first ∈ found.head?, first.text = "global" ∨ first.text = "local" := by
    intro found
    cases found <;> simp [Token.startsDeclaration]
  simp only [Token.ofLine, tokens, hfound, hstarts]

/-- Nothing is wrong with a line of items. -/
lemma ofLine_source_errors (n : Nat) (line : SpacedLine) :
    ParseError.ofLine n line.source = [] := by
  have hclosed : (Lexeme.ofLine line.source).any Lexeme.isUnclosed = false := by
    rw [ofLine_source, List.any_map, List.any_eq_false]
    intro spaced _
    simp [spaced.2.isUnclosed_lexeme]
  rw [ParseError.ofLine, hclosed]
  rfl

/-- No line ends inside a line of items. -/
lemma noLineEnd_source (line : SpacedLine) : '\n' ∉ line.source := by
  have hitems : '\n' ∉ itemsSource line.items := by
    intro h
    obtain ⟨⟨gap, item⟩, -, hmem⟩ := List.mem_flatMap.mp h
    rcases List.mem_append.mp hmem with hgap | hitem
    · exact gap.noLineEnd hgap
    · exact item.spells.noLineEnd hitem
  have hcomment : '\n' ∉ commentSource line.comment := by
    cases line.comment with
    | none => exact List.not_mem_nil
    | some text => simpa [commentSource] using text.property
  simp only [source, List.mem_append, not_or]
  exact ⟨hitems, line.last.noLineEnd, hcomment⟩

/-- The lines of what was written. -/
lemma lines_flatMap_source (lines : List SpacedLine) :
    Text.lines (lines.flatMap fun line => line.source ++ ['\n']) =
      lines.map fun line => Text.closeLine line.source := by
  induction lines with
  | nil => rfl
  | cons line later ih =>
    rw [List.flatMap_cons, List.append_assoc, List.singleton_append,
      Text.lines_append_lineFeed_cons line.noLineEnd_source, ih, List.map_cons]

end SpacedLine

/-- **Reading gives back what was written.** Take any lines of items, with any gaps in front of,
between and behind the items and with comments or without, and put a line feed behind each. Reading
them gives one token for each item, with the text that was written and the number of its line;
behind the tokens of a line stands a newline token exactly if the first of them has the text
`global` or `local`; at the end stands the end of the input, on the line behind the last; and
nothing is reported.

**Proof sketch.** The lines of the text are those that were written, up to carriage returns at their
ends (`SpacedLine.lines_flatMap_source`), and these do not matter (`Token.ofLine_closeLine`). So
each line is read as its items (`SpacedLine.ofLine_source`). -/
theorem Lexed.ofSource_spaced (lines : List SpacedLine) :
    Lexed.ofSource (String.ofList (lines.flatMap fun line => line.source ++ ['\n'])) =
      ⟨Text.onLines SpacedLine.tokens 1 lines ++ [Token.endOfInput (lines.length + 1)], []⟩ := by
  have htokens : (fun n line => Token.ofLine n (Text.closeLine (SpacedLine.source line))) =
      SpacedLine.tokens := by
    funext n line
    rw [Token.ofLine_closeLine, line.ofLine_source_tokens]
  have herrors : ∀ n (line : SpacedLine),
      ParseError.ofLine n (Text.closeLine line.source) = [] := by
    intro n line
    rw [ParseError.ofLine_closeLine, line.ofLine_source_errors]
  rw [Lexed.ofSource, String.toList_ofList, SpacedLine.lines_flatMap_source, Lexed.ofLines_eq,
    Text.onLines_map, Text.onLines_map, htokens, Text.onLines_eq_nil herrors, List.length_map,
    Nat.add_comm 1]

/-- Gaps with a carriage return at the end of the line, a chunk with an equals sign and slashes in
it, a comment with a quote, and a text that asks for a newline token. -/
example :
    let wide : Gap := ⟨['\t', '\u3000'], by decide, List.all_eq_true.mp (by decide), by decide⟩
    let ending : Gap := ⟨['\r'], by decide, List.all_eq_true.mp (by decide), by decide⟩
    let lines : List SpacedLine :=
      [⟨[(wide, .quotation "global".toList (by decide) (by decide) (by decide)),
          (wide, .symbol '=' (by decide))], wide, some ⟨"//\"".toList, by decide⟩⟩,
        ⟨[(ending, .chunk "a=/b/".toList (by decide))], ending, none⟩]
    Text.onLines SpacedLine.tokens 1 lines =
      [⟨.string, "global", 1⟩, ⟨.symbol, "=", 1⟩, ⟨.newline, "", 1⟩,
        ⟨.identifier, "a=/b/", 2⟩] := by
  decide

end DialogueScript
