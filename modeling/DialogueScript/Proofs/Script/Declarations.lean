import DialogueScript.Proofs.Parser.Origins
import DialogueScript.Proofs.Script.Composition

set_option autoImplicit false

/-!
# Where declarations end

A declaration of variables has no end of its own. Its names are those in the longest run of names
and commas behind its reserved word. If the line begins with `global` or `local`, then a newline
token stands at its end, and the run goes no further. So on such a line every declaration ends with
the line, whatever stands on the next one and however deep in blocks it is. Without this condition
it may not: in `x = 1 local a` there is nothing to end the run, and if the next line begins with
names, the declaration has these names too.

**Proof sketch.** Where a declaration comes from is known for any tokens
(`DialogueScript.Parser.finds_program`). A token of a source stands on one of its lines, behind
tokens on lines with smaller numbers (`DialogueScript.Text.onLines_eq_append_cons`). So the first
token with the number of a line is the first on that line, and if it is the word of a declaration,
the run behind any token of the line ends at the newline token
(`DialogueScript.Token.line_of_mem_nameRun`).

## Main definitions

* `DialogueScript.Token.LineDeclares` — a line begins with the word of a declaration.

## Main results

* `DialogueScript.Script.declaredIn_load` — all declarations of a script come from its tokens.
* `DialogueScript.Token.line_of_mem_nameRun` — no run of names goes beyond a line that begins with
  the word of a declaration.
* `DialogueScript.Script.declarations_end_at_line` — declarations end at their lines.
-/

namespace DialogueScript

/-- What stands somewhere on some lines stands on one of them, behind what is found on lines with
smaller numbers and in front of what is found on the lines behind. -/
lemma Text.onLines_eq_append_cons {α β : Type} {f : Nat → β → List α} {n : Nat} {lines : List β}
    {before after : List α} {a : α} (h : onLines f n lines = before ++ a :: after) :
    ∃ m line earlier front back later, f m line = front ++ a :: back ∧ n ≤ m ∧
      before = earlier ++ front ∧ after = back ++ later ∧
        ∀ b ∈ earlier, ∃ k line, k < m ∧ b ∈ f k line := by
  induction lines generalizing n before with
  | nil => simp [onLines] at h
  | cons line lines ih =>
    have hwhere : (∃ back, f n line = before ++ a :: back ∧
          after = back ++ onLines f (n + 1) lines) ∨
        ∃ before', before = f n line ++ before' ∧
          onLines f (n + 1) lines = before' ++ a :: after := by
      rw [onLines] at h
      rcases List.append_eq_append_iff.mp h with hlater | ⟨onLine, hline, hafter⟩
      · exact .inr hlater
      · cases onLine with
        | nil => exact .inr ⟨[], by simp [hline], hafter.symm⟩
        | cons u back =>
          obtain ⟨rfl, rfl⟩ := List.cons.inj hafter
          exact .inl ⟨back, hline, rfl⟩
    rcases hwhere with ⟨back, hline, rfl⟩ | ⟨before', rfl, hlater⟩
    · exact ⟨n, line, [], before, back, _, hline, Nat.le_refl n, rfl, rfl, by simp⟩
    · obtain ⟨m, line', earlier, front, back, later, hline, hle, rfl, rfl, hearlier⟩ := ih hlater
      refine ⟨m, line', f n line ++ earlier, front, back, later, hline, by omega, by simp, rfl, ?_⟩
      intro b hb
      rcases List.mem_append.mp hb with hb | hb
      · exact ⟨n, line, by omega, hb⟩
      · exact hearlier b hb

namespace Token

/-- The first token on the given line is the reserved word of a declaration of variables. -/
def LineDeclares (ts : List Token) (line : Nat) : Prop :=
  ∃ first, ts.find? (fun t => t.line == line) = some first ∧
    (first.IsWord "global" ∨ first.IsWord "local")

/-- A run of names and commas does not go beyond a token that is neither. -/
lemma mem_of_mem_nameRun {ts later : List Token} {stop u : Token}
    (hstop : stop.inNameList = false) (hu : u ∈ nameRun (ts ++ stop :: later)) : u ∈ ts := by
  induction ts with
  | nil =>
    rw [nameRun, List.nil_append, List.takeWhile_cons_of_neg (by simp [hstop])] at hu
    exact hu
  | cons t ts ih =>
    by_cases ht : t.inNameList = true
    · rw [nameRun, List.cons_append, List.takeWhile_cons_of_pos ht] at hu
      rcases List.mem_cons.mp hu with rfl | hu
      · exact List.mem_cons_self
      · exact List.mem_cons_of_mem t (ih hu)
    · rw [nameRun, List.cons_append, List.takeWhile_cons_of_neg ht] at hu
      simp at hu

/-- The tokens of a line that begins with the word of a declaration end with a newline token. -/
lemma exists_concat_newline {n : Nat} {cs : List Char} {first : Token} {later : List Token}
    (h : ofLine n cs = first :: later) (hfirst : first.IsWord "global" ∨ first.IsWord "local") :
    ∃ ts, ofLine n cs = ts ++ [⟨.newline, "", n⟩] := by
  by_cases hstarts : startsDeclaration ((Lexeme.ofLine cs).map (ofLexeme n)) = true
  · exact ⟨_, if_pos hstarts⟩
  · have hplain : ofLine n cs = (Lexeme.ofLine cs).map (ofLexeme n) := if_neg hstarts
    rw [← hplain, h] at hstarts
    rcases hfirst with hfirst | hfirst <;> simp [startsDeclaration, hfirst.2] at hstarts

/-- The first token on a line is the first that has its number. -/
lemma find?_line {m : Nat} {cs : List Char} {first : Token} {earlier more later : List Token}
    (h : ofLine m cs = first :: more)
    (hearlier : ∀ t ∈ earlier, ∃ k line, k < m ∧ t ∈ ofLine k line) :
    (earlier ++ ofLine m cs ++ later).find? (fun t => t.line == m) = some first := by
  have hnone : earlier.find? (fun t => t.line == m) = none := by
    rw [List.find?_eq_none]
    intro t ht
    obtain ⟨k, line, hlt, ht⟩ := hearlier t ht
    rw [line_of_mem_ofLine ht, beq_iff_eq]
    omega
  have hmem : first ∈ ofLine m cs := by simp [h]
  rw [List.append_assoc, List.find?_append, hnone, h, List.cons_append,
    List.find?_cons_of_pos (by simp [line_of_mem_ofLine hmem])]
  rfl

/-- **No run of names goes beyond a line that begins with the word of a declaration.**

**Proof sketch.** The first token on the line of `key` is the first token of that line's tokens, so
these end with a newline token, which is not `key`. The run behind `key` ends there at the latest,
and up to there all tokens stand on the line. -/
lemma line_of_mem_nameRun {n : Nat} {lines : List (List Char)} {before after rest : List Token}
    {key : Token} (h : Text.onLines ofLine n lines = before ++ key :: after)
    (hkey : key.kind = .keyword)
    (hline : LineDeclares (Text.onLines ofLine n lines ++ rest) key.line) :
    ∀ u ∈ nameRun (after ++ rest), u.line = key.line := by
  obtain ⟨m, cs, earlier, front, back, later, hcs, -, rfl, rfl, hearlier⟩ :=
    Text.onLines_eq_append_cons h
  have hmem : key ∈ ofLine m cs := by simp [hcs]
  have hm : key.line = m := line_of_mem_ofLine hmem
  obtain ⟨first, hfind, hfirst⟩ := hline
  have hhead : ∃ more, ofLine m cs = first :: more := by
    cases hof : ofLine m cs with
    | nil => simp [hof] at hcs
    | cons head more =>
      have hall : Text.onLines ofLine n lines ++ rest =
          earlier ++ ofLine m cs ++ (later ++ rest) := by
        rw [h, hcs]
        simp
      rw [hall, hm, find?_line hof hearlier] at hfind
      obtain rfl := Option.some.inj hfind
      exact ⟨more, rfl⟩
  obtain ⟨more, hof⟩ := hhead
  obtain ⟨ts, hts⟩ := exists_concat_newline hof hfirst
  rcases List.eq_nil_or_concat back with rfl | ⟨back, stop, rfl⟩
  · -- The word of a declaration is not the newline token.
    obtain ⟨-, rfl⟩ := List.append_singleton_inj.mp (hcs.symm.trans hts)
    simp at hkey
  · have hstop : stop = ⟨.newline, "", m⟩ := by
      have hend : (front ++ key :: back) ++ [stop] = ts ++ [⟨.newline, "", m⟩] := by
        rw [← hts, hcs]
        simp
      exact (List.append_singleton_inj.mp hend).2
    intro u hu
    have hrun : u ∈ nameRun (back ++ stop :: (later ++ rest)) := by simpa using hu
    have hback : u ∈ back := mem_of_mem_nameRun (by rw [hstop]; rfl) hrun
    have hu : u ∈ ofLine m cs := by simp [hcs, hback]
    rw [hm, line_of_mem_ofLine hu]

/-- The end of the input does not matter to a run of names. -/
lemma nameRun_start (ts : List Token) : nameRun (Cursor.start ts).tokens = nameRun ts := by
  have hkind : ∀ t : Token, (t.inNameList = true ∧ (t.kind != .eof) = true) ↔
      t.inNameList = true := by
    intro t
    refine and_iff_left_of_imp fun ht => ?_
    rw [inNameList, isSymbol, Bool.or_eq_true, Bool.and_eq_true] at ht
    rcases ht with hname | ⟨hsymbol, -⟩
    · rw [beq_iff_eq.mp hname]; rfl
    · rw [beq_iff_eq.mp hsymbol]; rfl
  rw [nameRun, Cursor.start, List.takeWhile_takeWhile]
  simp only [hkind, Bool.decide_eq_true]
  rfl

end Token

namespace Lexed

variable {source : String}

/-- A token of a source that is not its end stands on one of its lines. -/
lemma exists_of_suffix {key : Token} {later : List Token}
    (h : key :: later <:+ (ofSource source).tokens) (hkey : key.kind ≠ .eof) :
    ∃ before after,
      Text.onLines Token.ofLine 1 (Text.lines source.toList) = before ++ key :: after ∧
        later = after ++ [Token.endOfInput (1 + (Text.lines source.toList).length)] := by
  obtain ⟨before, hbefore⟩ := h
  rw [tokens_ofSource] at hbefore
  rcases List.eq_nil_or_concat later with rfl | ⟨after, stop, rfl⟩
  · obtain ⟨-, rfl⟩ := List.append_singleton_inj.mp hbefore
    exact absurd rfl hkey
  · rw [List.concat_eq_append, ← List.cons_append, ← List.append_assoc] at hbefore
    obtain ⟨hlines, rfl⟩ := List.append_singleton_inj.mp hbefore
    exact ⟨before, after, hlines.symm, List.concat_eq_append⟩

/-- What can be read on the lines of a source can be read in its tokens. -/
lemma declares_of_onLines {word : String} {names : List String}
    (h : Token.Declares (Text.onLines Token.ofLine 1 (Text.lines source.toList)) word names) :
    Token.Declares (ofSource source).tokens word names := by
  obtain ⟨key, later, ⟨before, hbefore⟩, hword, rfl⟩ := h
  have hlater : ∀ t ∈ later, t.kind ≠ .eof := by
    intro t ht
    have hmem : t ∈ Text.onLines Token.ofLine 1 (Text.lines source.toList) := by
      simp [← hbefore, ht]
    exact Token.kind_ne_eof_of_mem_onLines hmem
  refine ⟨key, later ++ [Token.endOfInput (1 + (Text.lines source.toList).length)],
    ⟨before, ?_⟩, hword, ?_⟩
  · rw [tokens_ofSource, ← hbefore]
    simp
  · rw [← Token.nameRun_start (later ++ _), Cursor.start_append_endOfInput hlater]

end Lexed

/-- What holds everywhere in a statement may be weakened. -/
lemma Stmt.Everywhere.imp {P Q : Stmt → Prop} {s : Stmt} (h : s.Everywhere P)
    (hPQ : ∀ t, P t → Q t) : s.Everywhere Q := by
  induction h with
  | intro self _ ih => exact .intro (hPQ _ self) ih

namespace Script

/-- All declarations of a script come from the tokens of its source. -/
lemma declaredIn_load {id source : String} {s : Stmt}
    (hs : s ∈ (Script.load id source).statements) :
    s.DeclaredIn (Lexed.ofSource source).tokens := by
  rw [Script.load_eq] at hs
  have hlines := Parser.finds_program (Cursor.ofLines 1 (Text.lines source.toList))
    List.suffix_rfl s hs
  exact hlines.imp fun t ht word names hdeclaration =>
    Lexed.declares_of_onLines (ht word names hdeclaration)

/-- On a line of a source that begins with the word of a declaration, the names behind such a word
are on its line. -/
lemma line_of_mem_nameRun {source : String} {key u : Token} {later : List Token}
    (h : key :: later <:+ (Lexed.ofSource source).tokens) (hkey : key.kind = .keyword)
    (hline : Token.LineDeclares (Lexed.ofSource source).tokens key.line)
    (hu : u ∈ Token.nameRun later) : u.line = key.line := by
  obtain ⟨before, after, hlines, rfl⟩ := Lexed.exists_of_suffix h (by simp [hkey])
  rw [Lexed.tokens_ofSource] at hline
  exact Token.line_of_mem_nameRun hlines hkey hline u hu

/-- **Declarations end at their lines**, where the line begins with one. Whatever the source is,
every declaration of variables in the script, at any depth, was read at its reserved word among the
tokens, and its names are those in the longest run of names and commas behind it; and at every such
word in the tokens, also where the statement is given up later, just these names are read. If the
line of the word begins with `global` or `local`, then all of the run stands on that line. -/
theorem declarations_end_at_line (id source : String) :
    (∀ s ∈ (Script.load id source).statements, s.Everywhere fun t =>
        ∀ word names, t.declaration? = some (word, names) →
          ∃ key later, key :: later <:+ (Lexed.ofSource source).tokens ∧ key.IsWord word ∧
            names = Token.names (Token.nameRun later) ∧
              (Token.LineDeclares (Lexed.ofSource source).tokens key.line →
                ∀ u ∈ Token.nameRun later, u.line = key.line)) ∧
      ∀ key later, key :: later <:+ (Lexed.ofSource source).tokens →
        key.IsWord "global" ∨ key.IsWord "local" →
          (Parser.fuelled Parser.nameListWithin (Cursor.start later)).value =
              Token.names (Token.nameRun later) ∧
            (Token.LineDeclares (Lexed.ofSource source).tokens key.line →
              ∀ u ∈ Token.nameRun later, u.line = key.line) := by
  refine ⟨fun s hs => (declaredIn_load hs).imp fun t ht word names hdeclaration => ?_, ?_⟩
  · obtain ⟨key, later, hsuffix, hword, hnames⟩ := ht word names hdeclaration
    exact ⟨key, later, hsuffix, hword, hnames, fun hline u hu =>
      line_of_mem_nameRun hsuffix hword.1 hline hu⟩
  · intro key later hsuffix hword
    have hkey : key.kind = .keyword := hword.elim And.left And.left
    refine ⟨?_, fun hline u hu => line_of_mem_nameRun hsuffix hkey hline hu⟩
    rw [Parser.fuelled_nameListWithin, Token.nameRun_start]

/-- A declaration inside a block, with a gap in its list and an assignment on the next line. -/
theorem declarations_end_at_line_nested :
    let source := "if x = 1\nlocal a, , b\nc = 1\nendif"
    ∃ key later, key :: later <:+ (Lexed.ofSource source).tokens ∧ key.IsWord "local" ∧
      Token.LineDeclares (Lexed.ofSource source).tokens key.line ∧
        Token.names (Token.nameRun later) = ["a", "b"] ∧
          ∀ u ∈ Token.nameRun later, u.line = key.line := by
  intro source
  have hsuffix : ⟨.keyword, "local", 2⟩ :: (Lexed.ofSource source).tokens.drop 5 <:+
      (Lexed.ofSource source).tokens := ⟨(Lexed.ofSource source).tokens.take 4, by decide +kernel⟩
  have hline : Token.LineDeclares (Lexed.ofSource source).tokens 2 :=
    ⟨⟨.keyword, "local", 2⟩, by decide +kernel, by decide⟩
  exact ⟨⟨.keyword, "local", 2⟩, (Lexed.ofSource source).tokens.drop 5, hsuffix, ⟨rfl, rfl⟩, hline,
    by decide +kernel,
    ((declarations_end_at_line "main" source).2 _ _ hsuffix (.inr ⟨rfl, rfl⟩)).2 hline⟩

/-- Behind another statement on its line, a declaration can go on at the next line: the condition
on the beginning of the line cannot be left out. -/
theorem declarations_beyond_line :
    ¬ ∀ id source, ∀ s ∈ (Script.load id source).statements, s.Everywhere fun t =>
      ∀ word names, t.declaration? = some (word, names) →
        ∃ key later, key :: later <:+ (Lexed.ofSource source).tokens ∧ key.IsWord word ∧
          names = Token.names (Token.nameRun later) ∧
            ∀ u ∈ Token.nameRun later, u.line = key.line := by
  intro hall
  have hstatements : ("local", ["a", "b"]) ∈
      (Script.load "main" "x = 1 local a\nb = 2").statements.filterMap Stmt.declaration? := by
    decide +kernel
  obtain ⟨s, hs, hdeclaration⟩ := List.mem_filterMap.mp hstatements
  obtain ⟨self, -⟩ := hall "main" "x = 1 local a\nb = 2" s hs
  obtain ⟨key, later, hsuffix, hword, -, hline⟩ := self _ _ hdeclaration
  have hbeyond : ∀ rest ∈ (Lexed.ofSource "x = 1 local a\nb = 2").tokens.tails, ∀ key ∈ rest.head?,
      key.IsWord "local" → ∃ u ∈ Token.nameRun rest.tail, u.line ≠ key.line := by
    decide +kernel
  obtain ⟨u, hu, hne⟩ := hbeyond _ ((List.mem_tails _ _).mpr hsuffix) key rfl hword
  exact hne (hline u hu)

end Script

end DialogueScript
