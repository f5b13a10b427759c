import DialogueScript.Proofs.Printing.Source
import Mathlib.Data.List.Chain

set_option autoImplicit false

/-!
# Reading printed lines

The lexemes of a printed line are known in advance: they are those of its parts, one behind the
other. Where a part ends in a name or a number, this needs a separator behind it, since otherwise
the next character would belong to it too. So a text *spells* some lexemes if it gives them in
front of any separator, and two spellings may be put together with a delimiter in between.

The same relation carries what else a line needs: that it has no comment, that no line ends in it,
and that it neither begins nor ends with a blank.

## Main definitions

* `DialogueScript.Lexeme.Spells` — a text gives some lexemes, whatever stands behind it.
* `DialogueScript.Lexeme.Delimits` — the texts between two spellings.
* `DialogueScript.Line.lexemes`, `DialogueScript.Line.tokens` — what a printed line is read as.

## Main results

* `DialogueScript.Lexeme.Spells.join` — spellings may be put together.
* `DialogueScript.Line.spells` — a printable line spells its lexemes.
* `DialogueScript.Lexed.ofSource_listSource` — the tokens of a printed program.
-/

namespace DialogueScript

/-! ## Lexemes of expressions and lines -/

namespace Lexeme

/-- The lexeme of a name or a reserved word. -/
def ofName (name : String) : Lexeme :=
  chunk name.toList

/-- The lexemes of some names, as items of a list. -/
def ofNames (names : List String) : List (List Lexeme) :=
  names.map fun name => [ofName name]

/-- Lexemes of items with a comma in between. -/
def withCommas (items : List (List Lexeme)) : List Lexeme :=
  [symbol ','].intercalate items

/-- Lexemes of items in parentheses. -/
def inParentheses (items : List (List Lexeme)) : List Lexeme :=
  symbol '(' :: (withCommas items ++ [symbol ')'])

end Lexeme

mutual

/-- The lexemes of an expression. -/
def Expr.lexemes : Expr → List Lexeme
  | .literal .string text => [.quoted text.toList true]
  | .literal _ text => [.chunk text.toList]
  | .var name => [.ofName name]
  | .call name args => [.ofName name] ++ Lexeme.inParentheses (Expr.listLexemes args)
  | .binary left _ right =>
    Expr.optionLexemes left ++ ([.symbol '='] ++ Expr.optionLexemes right)

/-- The lexemes of some expressions. -/
def Expr.listLexemes : List Expr → List (List Lexeme)
  | [] => []
  | expr :: later => expr.lexemes :: Expr.listLexemes later

/-- The lexemes of an expression that may be missing. -/
def Expr.optionLexemes : Option Expr → List Lexeme
  | none => []
  | some expr => expr.lexemes

end

/-- The lexemes of a condition. -/
def Condition.lexemes (condition : Condition) : List Lexeme :=
  Expr.optionLexemes condition.left ++ ([.symbol '='] ++ Expr.optionLexemes condition.right)

/-- The lexemes of a line. -/
def Line.lexemes : Line → List Lexeme
  | .reserved word => [.ofName word]
  | .operand word value => [.ofName word] ++ value.lexemes
  | .guard word condition => [.ofName word] ++ condition.lexemes
  | .declared word names => [.ofName word] ++ Lexeme.withCommas (Lexeme.ofNames names)
  | .head name [] => [.ofName "code"] ++ [.ofName name]
  | .head name (param :: params) =>
    [.ofName "code"] ++ ([.ofName name] ++ Lexeme.inParentheses (Lexeme.ofNames (param :: params)))
  | .assign name value => [.ofName name] ++ ([.symbol '='] ++ value.lexemes)
  | .call name args => [.ofName name] ++ Lexeme.inParentheses (Expr.listLexemes args)

namespace Lexeme

/-! ## Spellings -/

/-- A chunk ends in front of this text. -/
def Separates (cs : List Char) : Prop :=
  ∀ c ∈ cs.head?, Text.isBlank c = true ∨ isPunctuation c = true

/-- The two characters do not begin a comment. -/
def NoSlashes (a b : Char) : Prop :=
  ¬ (a = '/' ∧ b = '/')

/-- A text *spells* some lexemes if it is read as these in front of any separator. It has no
comment and no line end in it, all its quotes are closed, and there is no blank at its ends. -/
structure Spells (cs : List Char) (ls : List Lexeme) : Prop where
  /-- It is read as the lexemes. -/
  scan_append : ∀ more, Separates more → scan (cs ++ more) = ls ++ scan more
  /-- All quotes are closed. -/
  closed : ls.any isUnclosed = false
  /-- It has no comment. -/
  noComment : cs.IsChain NoSlashes
  /-- It stands on one line. -/
  noLineEnd : '\n' ∉ cs
  /-- It does not begin with a blank. -/
  head : ∃ c ∈ cs.head?, Text.isBlank c = false
  /-- It does not end with a blank. -/
  last : ∃ c ∈ cs.getLast?, Text.isBlank c = false

/-- A text *delimits* if a chunk in front of it ends there and it is read on its own, whatever
stands behind it. -/
structure Delimits (cs : List Char) (ls : List Lexeme) : Prop where
  /-- It is read as the lexemes. -/
  scan_append : ∀ more, scan (cs ++ more) = ls ++ scan more
  /-- It begins with a separator. -/
  head : ∃ c ∈ cs.head?, Text.isBlank c = true ∨ isPunctuation c = true
  /-- No quotes are opened. -/
  closed : ls.any isUnclosed = false
  /-- It has no slash. -/
  noSlash : '/' ∉ cs
  /-- It stands on one line. -/
  noLineEnd : '\n' ∉ cs

/-- A delimiter separates, whatever stands behind it. -/
lemma Delimits.separates {cs : List Char} {ls : List Lexeme} (h : Delimits cs ls)
    (more : List Char) : Separates (cs ++ more) := by
  obtain ⟨c, hc, hsep⟩ := h.head
  intro d hd
  rw [List.head?_append, Option.mem_def.mp hc] at hd
  obtain rfl : c = d := by simpa using hd
  exact hsep

/-- A blank delimits, and is no lexeme itself. -/
lemma delimits_blank : Delimits [' '] [] :=
  ⟨fun _ => rfl, ⟨' ', by decide⟩, by decide, by decide, by decide⟩

/-- An opening parenthesis delimits. -/
lemma delimits_opening : Delimits ['('] [symbol '('] :=
  ⟨fun _ => rfl, ⟨'(', by decide⟩, by decide, by decide, by decide⟩

/-- A comma with a blank behind it delimits. -/
lemma delimits_comma : Delimits [',', ' '] [symbol ','] :=
  ⟨fun _ => rfl, ⟨',', by decide⟩, by decide, by decide, by decide⟩

/-- An equals sign between blanks delimits. -/
lemma delimits_equals : Delimits " = ".toList [symbol '='] :=
  ⟨fun _ => rfl, ⟨' ', by decide⟩, by decide, by decide, by decide⟩

/-- A text without `//` has no two slashes side by side. -/
lemma isChain_of_hasNoComment {cs : List Char} (h : Text.hasNoComment cs = true) :
    cs.IsChain NoSlashes := by
  refine (List.isChain_isInfix cs).imp ?_
  rintro a b hab ⟨rfl, rfl⟩
  exact of_decide_eq_true h hab

/-- A text without slashes has none side by side. -/
lemma isChain_of_not_mem {cs : List Char} (h : '/' ∉ cs) : cs.IsChain NoSlashes :=
  isChain_of_hasNoComment (decide_eq_true fun hpair => h (hpair.subset (by simp)))

/-- **Spellings may be put together** with a delimiter in between. -/
lemma Spells.join {a b d : List Char} {x y z : List Lexeme} (ha : Spells a x)
    (hd : Delimits d y) (hb : Spells b z) : Spells (a ++ (d ++ b)) (x ++ (y ++ z)) where
  scan_append more hmore := by
    rw [List.append_assoc, ha.scan_append _ (by rw [List.append_assoc]; exact hd.separates _),
      List.append_assoc, hd.scan_append, hb.scan_append more hmore]
    simp only [List.append_assoc]
  closed := by simp only [List.any_append, ha.closed, hd.closed, hb.closed, Bool.or_false]
  noComment := by
    have hnot : ∀ {c}, c ∈ d → c ≠ '/' := fun hc h => hd.noSlash (h ▸ hc)
    refine List.isChain_append.mpr ⟨ha.noComment, List.isChain_append.mpr
      ⟨isChain_of_not_mem hd.noSlash, hb.noComment, ?_⟩, ?_⟩
    · rintro c hc e - ⟨h, -⟩
      exact hnot (List.mem_of_getLast? hc) h
    · rintro c - e he ⟨-, h⟩
      obtain ⟨f, hf, -⟩ := hd.head
      rw [List.head?_append, Option.mem_def.mp hf] at he
      obtain rfl : f = e := by simpa using he
      exact hnot (List.mem_of_head? hf) h
  noLineEnd := by simp [ha.noLineEnd, hd.noLineEnd, hb.noLineEnd]
  head := by
    obtain ⟨c, hc, hblank⟩ := ha.head
    exact ⟨c, by rw [List.head?_append, Option.mem_def.mp hc]; rfl, hblank⟩
  last := by
    obtain ⟨c, hc, hblank⟩ := hb.last
    exact ⟨c, by simp [List.getLast?_append, Option.mem_def.mp hc], hblank⟩

/-- A closing parenthesis may stand behind a spelling. -/
lemma Spells.close {a : List Char} {x : List Lexeme} (ha : Spells a x) :
    Spells (a ++ [')']) (x ++ [symbol ')']) where
  scan_append more _ := by
    have hsep : Separates ([')'] ++ more) := by
      rintro c ⟨⟩
      exact .inr rfl
    rw [List.append_assoc, ha.scan_append _ hsep, List.append_assoc]
    rfl
  closed := by simp [ha.closed, isUnclosed]
  noComment := by
    refine List.isChain_append.mpr ⟨ha.noComment, List.isChain_singleton _, ?_⟩
    rintro c - e ⟨⟩ ⟨-, h⟩
    exact absurd h (by decide)
  noLineEnd := by simp [ha.noLineEnd]
  head := by
    obtain ⟨c, hc, hblank⟩ := ha.head
    exact ⟨c, by rw [List.head?_append, Option.mem_def.mp hc]; rfl, hblank⟩
  last := ⟨')', by simp, by decide⟩

/-- A closing parenthesis spells itself. -/
lemma spells_closing : Spells [')'] [symbol ')'] :=
  ⟨fun _ _ => rfl, by decide, List.isChain_singleton _, by decide, ⟨')', by decide⟩,
    ⟨')', by decide⟩⟩

/-- Items with commas. -/
lemma spells_withCommas {texts : List (List Char)} {items : List (List Lexeme)}
    (h : List.Forall₂ Spells texts items) (hne : texts ≠ []) :
    Spells (Text.withCommas texts) (withCommas items) := by
  induction h with
  | nil => exact absurd rfl hne
  | @cons a x texts items hax hlater ih =>
    cases hlater with
    | nil => simpa [Text.withCommas, withCommas] using hax
    | cons _ _ =>
      have hjoin := hax.join delimits_comma (ih (by simp))
      simpa [Text.withCommas, withCommas, List.intercalate_cons_cons] using hjoin

/-- Items in parentheses behind a name. -/
lemma Spells.inParentheses {a : List Char} {x : List Lexeme} (ha : Spells a x)
    {texts : List (List Char)} {items : List (List Lexeme)}
    (h : List.Forall₂ Spells texts items) :
    Spells (a ++ Text.inParentheses texts) (x ++ inParentheses items) := by
  cases h with
  | nil => exact ha.join delimits_opening spells_closing
  | cons hax hlater =>
    exact ha.join delimits_opening (spells_withCommas (.cons hax hlater) (by simp)).close

/-! ## Names and literals -/

/-- In the middle of a chunk, characters that end no chunk belong to it. -/
lemma scanFrom_inChunk_append {cs : List Char}
    (h : ∀ c ∈ cs, Text.isBlank c = false ∧ isPunctuation c = false ∧ c ≠ '"')
    {more : List Char} (hmore : Separates more) (run : List Char) :
    scanFrom (.inChunk run) (cs ++ more) = chunk (run.reverse ++ cs) :: scan more := by
  induction cs generalizing run with
  | nil =>
    cases more with
    | nil => simp [scanFrom, scan]
    | cons c more =>
      by_cases hblank : Text.isBlank c = true
      · simp [scanFrom, scan, hblank]
      · have hc : isPunctuation c = true := (hmore c rfl).resolve_left hblank
        simp [scanFrom, scan, hblank, hc, isSymbolStart]
  | cons c cs ih =>
    obtain ⟨hblank, hpunct, hquote⟩ := h c (by simp)
    rw [List.cons_append, scanFrom, if_neg (by simp [hblank]), if_neg (by simp [hpunct]),
      if_neg (by simpa using hquote), ih fun d hd => h d (List.mem_cons_of_mem _ hd)]
    simp

/-- Inside quotes, everything up to the next quote belongs to the text. -/
lemma scanFrom_inQuotes_append {cs : List Char} (h : '"' ∉ cs) (more run : List Char) :
    scanFrom (.inQuotes run) (cs ++ '"' :: more) =
      quoted (run.reverse ++ cs) true :: scan more := by
  induction cs generalizing run with
  | nil => simp [scanFrom, scan]
  | cons c cs ih =>
    simp only [List.mem_cons, not_or] at h
    rw [List.cons_append, scanFrom, if_neg (by simpa using Ne.symm h.1), ih h.2]
    simp

/-- A run that stays in one piece spells a chunk. -/
lemma spells_chunk {cs : List Char} (h : Text.isSolid cs = true) : Spells cs [chunk cs] := by
  simp only [Text.isSolid, Bool.and_eq_true, List.all_eq_true, Bool.not_eq_true',
    bne_iff_ne, ne_eq] at h
  obtain ⟨⟨⟨hne, hall⟩, hfirst⟩, hcomment⟩ := h
  have hchar : ∀ c ∈ cs, Text.isBlank c = false ∧ isPunctuation c = false ∧ c ≠ '"' :=
    fun c hc => ⟨(hall c hc).1.1, (hall c hc).1.2, (hall c hc).2⟩
  obtain ⟨c, cs, rfl⟩ : ∃ c cs', cs = c :: cs' := List.exists_cons_of_ne_nil (by simpa using hne)
  obtain ⟨hblank, hpunct, hquote⟩ := hchar c (by simp)
  refine ⟨fun more hmore => ?_, rfl, isChain_of_hasNoComment hcomment, ?_, ⟨c, rfl, hblank⟩, ?_⟩
  · have hstart : isSymbolStart c = false := by simpa [isSymbolStart, hpunct] using hfirst
    rw [List.cons_append, scan, scanFrom, if_neg (by simp [hblank]), if_neg (by simp [hstart]),
      if_neg (by simpa using hquote),
      scanFrom_inChunk_append (fun d hd => hchar d (List.mem_cons_of_mem _ hd)) hmore]
    rfl
  · intro hmem
    exact absurd (hchar _ hmem).1 (by decide)
  · exact ⟨_, List.getLast?_eq_getLast_of_ne_nil (by simp), (hchar _ (List.getLast_mem _)).1⟩

/-- A text in quotes spells itself. -/
lemma spells_quoted {cs : List Char} (hcs : ∀ c ∈ cs, c ≠ '"' ∧ c ≠ '\n')
    (hcomment : Text.hasNoComment cs = true) :
    Spells ('"' :: cs ++ ['"']) [quoted cs true] where
  scan_append more _ := by
    have hquote : '"' ∉ cs := fun h => (hcs _ h).1 rfl
    rw [List.cons_append, List.cons_append, List.append_assoc]
    exact scanFrom_inQuotes_append hquote more []
  closed := rfl
  noComment := by
    refine List.isChain_append.mpr ⟨?_, List.isChain_singleton _, ?_⟩
    · refine List.isChain_cons.mpr ⟨?_, isChain_of_hasNoComment hcomment⟩
      rintro c - ⟨h, -⟩
      exact absurd h (by decide)
    · rintro c - e ⟨⟩ ⟨-, h⟩
      exact absurd h (by decide)
  noLineEnd := by
    have : '\n' ∉ cs := fun h => (hcs _ h).2 rfl
    simp [this]
  head := ⟨'"', rfl, by decide⟩
  last := ⟨'"', List.getLast?_concat, by decide⟩

end Lexeme

open Lexeme

/-- A digit is no blank, symbol, quote or slash. -/
lemma Text.not_blank_of_isDigit {c : Char} (h : c.isDigit = true) :
    isBlank c = false ∧ isPunctuation c = false ∧ c ≠ '"' ∧ c ≠ '=' ∧ c ≠ '/' := by
  have hrange : 48 ≤ c.toNat ∧ c.toNat ≤ 57 := Char.isDigit_iff_toNat.mp h
  have hne : ∀ d : Char, d.toNat < 48 ∨ 57 < d.toNat → c ≠ d := by
    rintro d hd rfl
    omega
  refine ⟨?_, ?_, hne _ (by decide), hne _ (by decide), hne _ (by decide)⟩
  · simp only [isBlank, blankRanges, List.any_cons, List.any_nil, Bool.or_false,
      Bool.or_eq_false_iff, Bool.and_eq_false_iff, decide_eq_false_iff_not]
    omega
  · simp [isPunctuation, hne '(' (by decide), hne ')' (by decide), hne ',' (by decide)]

/-- Digits stay in one piece. -/
lemma Text.isSolid_of_digits {cs : List Char} (hne : cs ≠ []) (h : cs.all Char.isDigit = true) :
    isSolid cs = true := by
  rw [List.all_eq_true] at h
  have hslash : '/' ∉ cs := fun hmem => (not_blank_of_isDigit (h _ hmem)).2.2.2.2 rfl
  have hcomment : hasNoComment cs = true :=
    decide_eq_true fun hpair => hslash (hpair.subset (by simp))
  have hfirst : cs.head? ≠ some '=' :=
    fun hhead => (not_blank_of_isDigit (h _ (List.mem_of_head? hhead))).2.2.2.1 rfl
  have hall : ∀ c ∈ cs, isBlank c = false ∧ isPunctuation c = false ∧ c ≠ '"' := fun c hc =>
    ⟨(not_blank_of_isDigit (h c hc)).1, (not_blank_of_isDigit (h c hc)).2.1,
      (not_blank_of_isDigit (h c hc)).2.2.1⟩
  simpa [isSolid, hne, hfirst, hcomment, and_assoc] using hall

/-- A name spells itself. -/
lemma spells_name {name : String} (h : Text.isName name = true) :
    Spells name.toList [.ofName name] := by
  simp only [Text.isName, Bool.and_eq_true] at h
  exact spells_chunk h.1.1.1.1

/-- A literal spells itself. -/
lemma spells_literal {kind : LiteralKind} {text : String} (h : kind.isSpelling text = true) :
    Spells (Expr.literal kind text).source (Expr.literal kind text).lexemes := by
  cases kind with
  | string =>
    simp only [LiteralKind.isSpelling, Bool.and_eq_true, List.all_eq_true, bne_iff_ne] at h
    exact spells_quoted h.1 h.2
  | number =>
    simp only [LiteralKind.isSpelling, Bool.and_eq_true, Bool.not_eq_true'] at h
    exact spells_chunk (Text.isSolid_of_digits (List.isEmpty_eq_false_iff.mp h.1) h.2)
  | boolean =>
    simp only [LiteralKind.isSpelling, Bool.or_eq_true, beq_iff_eq] at h
    obtain rfl | rfl := h <;> exact spells_chunk (by decide)

mutual

/-- A printable expression spells its lexemes. -/
lemma Expr.spells : (e : Expr) → e.isPrintable = true → Spells e.source e.lexemes
  | .literal _ _, h => spells_literal (by simpa [Expr.isPrintable] using h)
  | .var _, h => spells_name (by simpa [Expr.isPrintable] using h)
  | .call _ args, h => by
    simp only [Expr.isPrintable, Bool.and_eq_true] at h
    exact (spells_name h.1).inParentheses (Expr.listSpells args h.2)

/-- Printable expressions spell their lexemes. -/
lemma Expr.listSpells : (es : List Expr) → Expr.listIsPrintable es = true →
    List.Forall₂ Spells (Expr.listSource es) (Expr.listLexemes es)
  | [], _ => .nil
  | e :: es, h => by
    simp only [Expr.listIsPrintable, Bool.and_eq_true] at h
    exact .cons (Expr.spells e h.1) (Expr.listSpells es h.2)

end

/-- A printable condition spells its lexemes. -/
lemma Condition.spells {condition : Condition} (h : condition.isPrintable = true) :
    Spells condition.source condition.lexemes := by
  match condition, h with
  | ⟨some left, .eq, some right⟩, h =>
    simp only [Condition.isPrintable, Bool.and_eq_true] at h
    exact (left.spells h.1).join delimits_equals (right.spells h.2)

/-! ## Lines -/

/-- A reserved word spells itself. -/
lemma spells_reserved {word : String} (h : reservedWords.contains word = true) :
    Spells word.toList [.ofName word] := by
  have hsolid : ∀ word ∈ reservedWords, Text.isSolid word.toList = true := by decide
  exact spells_chunk (hsolid word (by simpa using h))

/-- Names spell themselves. -/
lemma forall₂_spells_names {names : List String} (h : names.all Text.isName = true) :
    List.Forall₂ Spells (names.map String.toList) (ofNames names) := by
  induction names with
  | nil => exact .nil
  | cons name names ih =>
    simp only [List.all_cons, Bool.and_eq_true] at h
    exact .cons (spells_name h.1) (ih h.2)

/-- A line of which all parts have a spelling. -/
def Line.isPrintable : Line → Bool
  | .reserved word => reservedWords.contains word
  | .operand word value => reservedWords.contains word && value.isPrintable
  | .guard word condition => reservedWords.contains word && condition.isPrintable
  | .declared word names =>
    reservedWords.contains word && !names.isEmpty && names.all Text.isName
  | .head name params => Text.isName name && params.all Text.isName
  | .assign name value => Text.isName name && value.isPrintable
  | .call name args => Text.isName name && Expr.listIsPrintable args

/-- **A printable line spells its lexemes.** -/
theorem Line.spells {line : Line} (h : line.isPrintable = true) :
    Spells line.source line.lexemes := by
  match line, h with
  | .reserved word, h => exact spells_reserved h
  | .operand word value, h =>
    simp only [Line.isPrintable, Bool.and_eq_true] at h
    exact (spells_reserved h.1).join delimits_blank (value.spells h.2)
  | .guard word condition, h =>
    simp only [Line.isPrintable, Bool.and_eq_true] at h
    exact (spells_reserved h.1).join delimits_blank (condition.spells h.2)
  | .declared word names, h =>
    simp only [Line.isPrintable, Bool.and_eq_true, Bool.not_eq_true',
      List.isEmpty_eq_false_iff] at h
    exact (spells_reserved h.1.1).join delimits_blank
      (spells_withCommas (forall₂_spells_names h.2) (by simpa using h.1.2))
  | .head name [], h =>
    simp only [Line.isPrintable, Bool.and_eq_true] at h
    exact (spells_reserved (by decide)).join delimits_blank (spells_name h.1)
  | .head name (param :: params), h =>
    simp only [Line.isPrintable, Bool.and_eq_true] at h
    exact (spells_reserved (by decide)).join delimits_blank
      ((spells_name h.1).inParentheses (forall₂_spells_names h.2))
  | .assign name value, h =>
    simp only [Line.isPrintable, Bool.and_eq_true] at h
    exact (spells_name h.1).join delimits_equals (value.spells h.2)
  | .call name args, h =>
    simp only [Line.isPrintable, Bool.and_eq_true] at h
    exact (spells_name h.1).inParentheses (Expr.listSpells args h.2)

/-- A text without `//` is not cut. -/
lemma Lexeme.cutComment_eq_self {cs : List Char} (h : cs.IsChain NoSlashes) :
    cutComment cs = cs := by
  fun_induction cutComment cs with
  | case1 => rfl
  | case2 => exact absurd ⟨rfl, rfl⟩ (List.isChain_cons_cons.mp h).1
  | case3 c cs _ ih => rw [ih h.tail]

/-- A text without blanks at its ends is not trimmed. -/
lemma Text.trim_eq_self {cs : List Char} (hfirst : ∃ c ∈ cs.head?, Text.isBlank c = false)
    (hlast : ∃ c ∈ cs.getLast?, Text.isBlank c = false) : Text.trim cs = cs := by
  have hstart : ∀ {cs : List Char}, (∃ c ∈ cs.head?, Text.isBlank c = false) →
      cs.dropWhile Text.isBlank = cs := by
    rintro cs ⟨c, hc, hblank⟩
    obtain ⟨cs, rfl⟩ := List.head?_eq_some_iff.mp hc
    exact List.dropWhile_cons_of_neg (by simp [hblank])
  obtain ⟨c, hc, hblank⟩ := hlast
  rw [Text.trim, Text.trimStart, hstart hfirst, Text.trimEnd,
    hstart ⟨c, by simpa using hc, hblank⟩, List.reverse_reverse]

/-- A line is read as the lexemes that it spells. -/
lemma Lexeme.Spells.ofLine_eq {cs : List Char} {ls : List Lexeme} (h : Spells cs ls) :
    Lexeme.ofLine cs = ls := by
  have hscan := h.scan_append [] (by simp [Separates])
  rw [Lexeme.ofLine, cutComment_eq_self h.noComment, Text.trim_eq_self h.head h.last]
  simpa [scan, scanFrom] using hscan

/-- A text without line ends in it, and a line feed behind it, is the first line. -/
lemma Text.lines_append_lineFeed {line : List Char} (hline : '\n' ∉ line)
    (hlast : line.getLast? ≠ some '\r') (cs : List Char) :
    lines (line ++ '\n' :: cs) = line :: lines cs := by
  induction line with
  | nil => rw [List.nil_append, lines]
  | cons c line ih =>
    simp only [List.mem_cons, not_or] at hline
    rw [List.cons_append, lines, ih hline.2]
    · rfl
    · cases line with
      | nil => simp
      | cons d line => rwa [List.getLast?_cons_cons] at hlast
    · rintro more rfl hmore
      cases line with
      | nil => exact hlast rfl
      | cons d line =>
        obtain ⟨rfl, -⟩ := List.cons.inj hmore
        simp at hline
    · exact fun h => hline.1 h.symm

/-- A line that spells something is the first line of a text, if a line feed follows it. -/
lemma Lexeme.Spells.lines_append {line : List Char} {ls : List Lexeme} (h : Spells line ls)
    (cs : List Char) : Text.lines (line ++ '\n' :: cs) = line :: Text.lines cs := by
  refine Text.lines_append_lineFeed h.noLineEnd (fun hlast => ?_) cs
  obtain ⟨c, hc, hblank⟩ := h.last
  obtain rfl : '\r' = c := by simpa [hlast] using hc
  exact absurd hblank (by decide)

/-! ## Tokens -/

/-- The tokens of a line that is read as the given lexemes. -/
def Token.ofLexemes (n : Nat) (lexemes : List Lexeme) : List Token :=
  let tokens := lexemes.map (ofLexeme n)
  if startsDeclaration tokens then tokens ++ [⟨.newline, "", n⟩] else tokens

/-- The tokens of a printed line with the given number. -/
def Line.tokens (n : Nat) (line : Line) : List Token :=
  Token.ofLexemes n line.lexemes

/-- The tokens of printed lines, the first of which has the given number. -/
def Line.listTokens : Nat → List Line → List Token
  | _, [] => []
  | n, line :: later => line.tokens n ++ Line.listTokens (n + 1) later

/-- The kinds that a chunk can be sorted as. -/
lemma Token.kind_ofChunk_mem (n : Nat) (cs : List Char) :
    (ofChunk n cs).kind ∈ [TokenKind.boolean, .keyword, .number, .identifier] := by
  rw [ofChunk]
  repeat' split
  all_goals simp

/-- No token of a line is the end of the input. -/
lemma Token.kind_ne_eof_of_mem_ofLexemes {n : Nat} {lexemes : List Lexeme} {t : Token}
    (h : t ∈ ofLexemes n lexemes) : t.kind ≠ .eof := by
  have hlexeme : ∀ l, (ofLexeme n l).kind ≠ .eof := by
    intro l
    cases l with
    | symbol _ => simp [ofLexeme]
    | quoted _ _ => simp [ofLexeme]
    | chunk cs => exact fun h => absurd (h ▸ kind_ofChunk_mem n cs) (by decide)
  have hmap : ∀ t ∈ lexemes.map (ofLexeme n), t.kind ≠ .eof := by
    intro t ht
    obtain ⟨l, -, rfl⟩ := List.mem_map.mp ht
    exact hlexeme l
  simp only [ofLexemes] at h
  split at h
  · rcases List.mem_append.mp h with h | h
    · exact hmap t h
    · simp_all
  · exact hmap t h

/-- Printed lines have no end marker among their tokens. -/
lemma Line.kind_ne_eof_of_mem_listTokens {n : Nat} {lines : List Line} {t : Token}
    (h : t ∈ Line.listTokens n lines) : t.kind ≠ .eof := by
  induction lines generalizing n with
  | nil => simp [Line.listTokens] at h
  | cons line later ih =>
    rcases List.mem_append.mp h with h | h
    · exact Token.kind_ne_eof_of_mem_ofLexemes h
    · exact ih h

/-- Printable lines are read without a report. -/
lemma Lexed.ofLines_sources {lines : List Line} (h : ∀ line ∈ lines, line.isPrintable = true)
    (n : Nat) :
    Lexed.ofLines n (lines.map Line.source) =
      ⟨Line.listTokens n lines ++ [Token.endOfInput (n + lines.length)], []⟩ := by
  induction lines generalizing n with
  | nil => rfl
  | cons line later ih =>
    have hspells := Line.spells (h line (by simp))
    have htokens : Token.ofLine n line.source = line.tokens n := by
      simp only [Token.ofLine, hspells.ofLine_eq, Line.tokens, Token.ofLexemes]
    have herrors : ParseError.ofLine n line.source = [] := by
      simp only [ParseError.ofLine, hspells.ofLine_eq, hspells.closed, Bool.false_eq_true,
        if_false]
    rw [List.map_cons, Lexed.ofLines, ih fun l hl => h l (List.mem_cons_of_mem _ hl)]
    simp only [htokens, herrors, Line.listTokens, List.append_assoc, List.nil_append,
      List.length_cons, Nat.add_right_comm n 1 later.length, Nat.add_assoc]

/-- The lines of a printed text are those that were printed. -/
lemma Line.lines_flatMap_source {lines : List Line}
    (h : ∀ line ∈ lines, line.isPrintable = true) :
    Text.lines (lines.flatMap fun line => line.source ++ ['\n']) = lines.map Line.source := by
  induction lines with
  | nil => rfl
  | cons line later ih =>
    have hspells := Line.spells (h line (by simp))
    rw [List.flatMap_cons, List.append_assoc, List.singleton_append, hspells.lines_append,
      ih fun l hl => h l (List.mem_cons_of_mem _ hl), List.map_cons]

mutual

/-- The lines of a printable statement are printable. -/
lemma Stmt.all_lines_isPrintable : (s : Stmt) → s.isPrintable = true →
    s.lines.all Line.isPrintable = true
  | .assign _ _, h => by simpa [Stmt.lines, Line.isPrintable, Stmt.isPrintable] using h
  | .call _ _, h => by simpa [Stmt.lines, Line.isPrintable, Stmt.isPrintable] using h
  | .declare _ _ body, h => by
    simp only [Stmt.isPrintable, Bool.and_eq_true] at h
    have hbody := Stmt.all_listLines_isPrintable body h.2
    simp [Stmt.lines, Line.isPrintable, h.1, hbody, reservedWords]
  | .globals _, h => by
    simpa [Stmt.lines, Line.isPrintable, Stmt.isPrintable, reservedWords] using h
  | .locals [], _ => by decide
  | .locals (_ :: _), h => by
    simpa [Stmt.lines, Line.isPrintable, Stmt.isPrintable, reservedWords] using h
  | .branch _ thenBody [], h => by
    simp only [Stmt.isPrintable, Bool.and_eq_true] at h
    have hthen := Stmt.all_listLines_isPrintable thenBody h.1.2
    simp [Stmt.lines, Line.isPrintable, h.1.1, hthen, reservedWords]
  | .branch _ thenBody (first :: later), h => by
    simp only [Stmt.isPrintable, Bool.and_eq_true] at h
    have hthen := Stmt.all_listLines_isPrintable thenBody h.1.2
    have helse := Stmt.all_listLines_isPrintable (first :: later) h.2
    simp [Stmt.lines, Line.isPrintable, h.1.1, hthen, helse, reservedWords]
  | .select _ cases, h => by
    simp only [Stmt.isPrintable, Bool.and_eq_true] at h
    have hcases := CaseBlock.all_listLines_isPrintable cases h.2
    simp [Stmt.lines, Line.isPrintable, h.1, hcases, reservedWords]
  | .loop _ body, h => by
    simp only [Stmt.isPrintable, Bool.and_eq_true] at h
    have hbody := Stmt.all_listLines_isPrintable body h.2
    simp [Stmt.lines, Line.isPrintable, h.1, hbody, reservedWords]
  | .ret none, _ => by decide
  | .ret (some _), h => by
    simpa [Stmt.lines, Line.isPrintable, Stmt.isPrintable, reservedWords] using h
  | .exitCode, _ => by decide

/-- The lines of printable statements are printable. -/
lemma Stmt.all_listLines_isPrintable : (statements : List Stmt) →
    Stmt.listIsPrintable statements = true →
    (Stmt.listLines statements).all Line.isPrintable = true
  | [], _ => rfl
  | s :: later, h => by
    simp only [Stmt.listIsPrintable, Bool.and_eq_true] at h
    rw [Stmt.listLines, List.all_append, Stmt.all_lines_isPrintable s h.1,
      Stmt.all_listLines_isPrintable later h.2]
    rfl

/-- The lines of printable cases are printable. -/
lemma CaseBlock.all_listLines_isPrintable : (cases : List CaseBlock) →
    CaseBlock.listIsPrintable cases = true →
    (CaseBlock.listLines cases).all Line.isPrintable = true
  | [], _ => rfl
  | ⟨_, body⟩ :: later, h => by
    simp only [CaseBlock.listIsPrintable, CaseBlock.isPrintable, Bool.and_eq_true] at h
    have hbody := Stmt.all_listLines_isPrintable body h.1.2
    have hlater := CaseBlock.all_listLines_isPrintable later h.2
    simp [CaseBlock.listLines, CaseBlock.lines, Line.isPrintable, h.1.1, hbody, hlater,
      reservedWords]

end

/-- **The tokens of a printed program** are those of its lines, and reading them gives no report. -/
theorem Lexed.ofSource_listSource {statements : List Stmt}
    (h : Stmt.listIsPrintable statements = true) :
    Lexed.ofSource (Stmt.listSource statements) =
      ⟨Line.listTokens 1 (Stmt.listLines statements) ++
        [Token.endOfInput (1 + (Stmt.listLines statements).length)], []⟩ := by
  have hlines := List.all_eq_true.mp (Stmt.all_listLines_isPrintable statements h)
  rw [Lexed.ofSource, Stmt.listSource, String.toList_ofList, Line.lines_flatMap_source hlines,
    Lexed.ofLines_sources hlines]

end DialogueScript
