import DialogueScript.Proofs.Parser.Words
import DialogueScript.Proofs.Script.Pruning

set_option autoImplicit false

/-!
# Programs do not nest too deep

Whatever the tokens are, a parser opens only so many blocks and calls inside each other: it is given
room for them, each block and each call takes one place, and where there is none left a block stays
empty and a call is left out. So in every program the statements lie inside at most 64 blocks, and
call expressions inside at most 63 blocks and other call expressions. Whoever goes over such a
program recursively, from the statements to those in their blocks and to the expressions, stays
within 66 levels.

## Main definitions

* `DialogueScript.Expr.Encloses` — an expression inside so many calls of another one.
* `DialogueScript.Expr.Fits`, `DialogueScript.Stmt.Fits` — there is room for all blocks and calls.
* `DialogueScript.Expr.Shallow`, `DialogueScript.Stmt.Shallow` — the levels of a traversal.

## Main results

* `DialogueScript.Parser.makesOption_statement_fits` — a parser stays within the room that it is
  given.
* `DialogueScript.nesting_bounded` — no program nests too deep.
-/

namespace DialogueScript

/-! ## Depths and levels -/

/-- The second expression lies in the first one, inside exactly so many of its call expressions. -/
inductive Expr.Encloses : (calls : Nat) → Expr → Expr → Prop
  /-- It is the expression itself. -/
  | here {e : Expr} : Encloses 0 e e
  /-- It lies in an argument of a call. -/
  | arg {calls : Nat} {name : String} {args : List Expr} {outer e : Expr} (harg : outer ∈ args)
      (h : Encloses calls outer e) : Encloses (calls + 1) (.call name args) e
  /-- It lies in the left side of a comparison. -/
  | left {calls : Nat} {op : BinaryOp} {right : Option Expr} {outer e : Expr}
      (h : Encloses calls outer e) : Encloses calls (.binary (some outer) op right) e
  /-- It lies in the right side of a comparison. -/
  | right {calls : Nat} {op : BinaryOp} {left : Option Expr} {outer e : Expr}
      (h : Encloses calls outer e) : Encloses calls (.binary left op (some outer)) e

/-- A traversal of the expression takes at most so many levels. -/
def Expr.Shallow : (levels : Nat) → Expr → Prop
  | 0, _ => False
  | _ + 1, .literal _ _ => True
  | _ + 1, .var _ => True
  | levels + 1, .call _ args => ∀ arg ∈ args, arg.Shallow levels
  | levels + 1, .binary left _ right =>
    (∀ side ∈ left, side.Shallow levels) ∧ ∀ side ∈ right, side.Shallow levels

/-- A traversal of the statement, the expressions in it and the statements in its blocks takes at
most so many levels. -/
def Stmt.Shallow : (levels : Nat) → Stmt → Prop
  | 0, _ => False
  | levels + 1, s => (∀ e ∈ s.operands, e.Shallow levels) ∧
      ∀ block ∈ s.childBlocks, ∀ t ∈ block, t.Shallow levels

/-! ## Room -/

/-- There is room for the calls in the expression, and there are no comparisons in it. -/
def Expr.Fits : (room : Nat) → Expr → Prop
  | _, .literal _ _ => True
  | _, .var _ => True
  | 0, .call _ _ => False
  | room + 1, .call _ args => ∀ arg ∈ args, arg.Fits room
  | _, .binary _ _ _ => False

/-- There is room for the calls and the blocks in the statement. A block without room is empty. -/
def Stmt.Fits : (room : Nat) → Stmt → Prop
  | 0, s => (∀ e ∈ s.operands, e.Fits 0) ∧ ∀ block ∈ s.childBlocks, block = []
  | room + 1, s => (∀ e ∈ s.operands, e.Fits (room + 1)) ∧
      ∀ block ∈ s.childBlocks, ∀ t ∈ block, t.Fits room

/-- Around a call in an expression that fits into the room there is room for the call itself. -/
lemma Expr.Fits.calls_lt {room calls : Nat} {e : Expr} {name : String} {args : List Expr}
    (h : e.Fits room) (hcall : e.Encloses calls (.call name args)) : calls < room := by
  generalize hinner : Expr.call name args = inner at hcall
  induction hcall generalizing room with
  | here =>
    subst hinner
    cases room with
    | zero => exact h.elim
    | succ room => exact Nat.succ_pos room
  | arg harg _ ih =>
    cases room with
    | zero => exact h.elim
    | succ room => exact Nat.succ_lt_succ (ih (h _ harg) hinner)
  | left _ _ => simp [Fits] at h
  | right _ _ => simp [Fits] at h

/-- An expression that fits into the room takes one level more than that to traverse. -/
lemma Expr.Fits.shallow {room : Nat} {e : Expr} (h : e.Fits room) : e.Shallow (room + 1) := by
  induction room generalizing e with
  | zero => cases e <;> simp_all [Fits, Shallow]
  | succ room ih =>
    cases e with
    | literal kind text => trivial
    | var name => trivial
    | call name args => exact fun arg harg => ih (h arg harg)
    | binary left op right => exact h.elim

namespace Stmt.Fits

variable {room depth : Nat} {s : Stmt} {statements : List Stmt}

/-- The expressions directly in a statement that fits into the room fit into it too. -/
lemma operand (h : s.Fits room) : ∀ e ∈ s.operands, e.Fits room := by
  cases room with
  | zero => exact h.1
  | succ room => exact h.1

/-- A statement that fits into the room takes two levels more than that to traverse. -/
lemma shallow (h : s.Fits room) : s.Shallow (room + 2) := by
  induction room generalizing s with
  | zero =>
    refine ⟨fun e he => (h.1 e he).shallow, fun block hblock t ht => ?_⟩
    rw [h.2 block hblock] at ht
    cases ht
  | succ room ih =>
    exact ⟨fun e he => (h.1 e he).shallow, fun block hblock t ht => ih (h.2 block hblock t ht)⟩

/-- **Each block takes one place**: the statements inside so many blocks have that much less room,
and there are none inside more blocks than there was room for. -/
lemma atDepth (h : ∀ s ∈ statements, s.Fits room) (hs : s ∈ Stmt.atDepth depth statements) :
    depth ≤ room ∧ s.Fits (room - depth) := by
  induction depth generalizing room statements with
  | zero => exact ⟨Nat.zero_le room, h s hs⟩
  | succ depth ih =>
    rw [Stmt.atDepth] at hs
    cases room with
    | zero =>
      have hnone : statements.flatMap (fun outer => outer.childBlocks.flatten) = [] :=
        List.flatMap_eq_nil_iff.mpr fun outer houter =>
          List.flatten_eq_nil_iff.mpr (h outer houter).2
      rw [hnone, Stmt.atDepth_nil] at hs
      cases hs
    | succ room =>
      have hinside : ∀ t ∈ statements.flatMap (fun outer => outer.childBlocks.flatten),
          t.Fits room := by
        intro t ht
        obtain ⟨outer, houter, ht⟩ := List.mem_flatMap.mp ht
        obtain ⟨block, hblock, ht⟩ := List.mem_flatten.mp ht
        exact (h outer houter).2 block hblock t ht
      obtain ⟨hdepth, hfits⟩ := ih hinside hs
      rw [Nat.add_sub_add_right]
      exact ⟨Nat.succ_le_succ hdepth, hfits⟩

end Stmt.Fits

/-- A layer on top of what fits into the room inside fits into the room. -/
lemma Stmt.Layer.fits {Word : TokenKind → String → Prop} {room : Nat} {s : Stmt}
    (h : s.Layer Word (Expr.Fits room) fun t => ∃ inner, room = inner + 1 ∧ t.Fits inner) :
    s.Fits room := by
  have hguard : ∀ {guard : Condition}, guard.Layer (Expr.Fits room) →
      ∀ e ∈ guard.operands, e.Fits room := by
    intro guard hlayer e he
    rcases List.mem_append.mp he with hleft | hright
    · exact hlayer.left e (Option.mem_toList.mp hleft)
    · exact hlayer.right e (Option.mem_toList.mp hright)
  have hoperands : ∀ e ∈ s.operands, e.Fits room := by
    cases h with
    | assign _ hvalue => simpa [Stmt.operands] using hvalue
    | call _ hargs => exact hargs
    | branch hlayer _ _ => exact hguard hlayer
    | select hselector hvalues _ => simpa [Stmt.operands] using ⟨hselector, hvalues⟩
    | loop hlayer _ => exact hguard hlayer
    | ret hvalue => simpa [Stmt.operands] using hvalue
    | _ => simp [Stmt.operands]
  have hinside : ∀ block ∈ s.childBlocks, ∀ t ∈ block,
      ∃ inner, room = inner + 1 ∧ t.Fits inner := by
    cases h with
    | declare _ _ hbody => simpa [Stmt.childBlocks] using hbody
    | branch _ hthen helse => simpa [Stmt.childBlocks] using ⟨hthen, helse⟩
    | select _ _ hbodies => simpa [Stmt.childBlocks] using hbodies
    | loop _ hbody => simpa [Stmt.childBlocks] using hbody
    | _ => simp [Stmt.childBlocks]
  cases room with
  | zero =>
    refine ⟨hoperands, fun block hblock => List.eq_nil_iff_forall_not_mem.mpr fun t ht => ?_⟩
    obtain ⟨inner, hroom, -⟩ := hinside block hblock t ht
    cases hroom
  | succ room =>
    refine ⟨hoperands, fun block hblock t ht => ?_⟩
    obtain ⟨inner, hroom, hfits⟩ := hinside block hblock t ht
    rwa [Nat.succ.inj hroom]

/-! ## Parsers -/

namespace Parser

variable {Word : TokenKind → String → Prop}

/-- What a parser with some room gives as an expression fits into that room. -/
lemma makesOption_expression_fits (room : Nat) :
    MakesOption Word (Expr.Fits room) (expression room) := by
  have hwith : ∀ {room : Nat} {call : String → Parser (Option Expr)},
      (∀ name, MakesOption Word (Expr.Fits room) (call name)) →
        MakesOption Word (Expr.Fits room) (expressionWith call) := by
    intro room call hcall
    refine makesOption_expressionWith (fun _ _ _ => ?_) (fun _ _ => ?_) fun name _ => hcall name
    · simp [Expr.Fits]
    · simp [Expr.Fits]
  induction room with
  | zero => exact hwith fun _ => makesOption_callTooDeep
  | succ room ih => exact hwith fun _ => makesOption_callArguments ih fun _ hargs => hargs

/-- **A parser stays within the room that it is given.** -/
lemma makesOption_statement_fits (room : Nat) :
    MakesOption Word (Stmt.Fits room) (statement room) := by
  induction room with
  | zero =>
    exact (makesOption_statementWith (makesOption_expression_fits 0)
      makesList_blockTooDeep).mono fun _ => Stmt.Layer.fits
  | succ room ih =>
    have hitem : MakesOption Word (fun t => ∃ inner, room + 1 = inner + 1 ∧ t.Fits inner)
        (statement room) := ih.mono fun _ hfits => ⟨room, rfl, hfits⟩
    exact (makesOption_statementWith (makesOption_expression_fits (room + 1)) fun _ =>
      makesList_manyUntil hitem).mono fun _ => Stmt.Layer.fits

end Parser

/-- Every statement of a program fits into the room that there is. -/
lemma fits_parseTokens (tokens : List Token) :
    ∀ s ∈ (parseTokens tokens).1, s.Fits Parser.nestingLimit := by
  have hstart : (Cursor.start tokens).Worded fun _ _ => True := fun _ _ => trivial
  exact (Parser.makesList_manyUntil (Parser.makesOption_statement_fits _) _ hstart).1

/-- **No program nests too deep.** In what is parsed of any tokens, every statement lies inside at
most 64 blocks, and a call expression lies inside at most 63 blocks and other call expressions
together, where a call statement counts as neither. A recursive traversal of a statement, which
goes on to the expressions in it and to the statements in its blocks, takes at most 66 levels: those
of the outermost statement and of the innermost expression, and one for each block and each call on
the way.

**Proof sketch.** With each block and each call a parser has one place less
(`Parser.makesOption_statement_fits`). A statement inside some blocks has what they leave of the 64
places (`Stmt.Fits.atDepth`), and calls inside each other need a place each
(`Expr.Fits.calls_lt`). -/
theorem nesting_bounded (tokens : List Token) :
    (∀ depth, ∀ s ∈ Stmt.atDepth depth (parseTokens tokens).1,
      depth ≤ 64 ∧ ∀ operand ∈ s.operands, ∀ calls name args,
        operand.Encloses calls (.call name args) → depth + calls ≤ 63) ∧
      ∀ s ∈ (parseTokens tokens).1, s.Shallow 66 := by
  have hfits := fits_parseTokens tokens
  refine ⟨fun depth s hs => ?_, fun s hs => (hfits s hs).shallow⟩
  obtain ⟨hdepth, hroom⟩ := Stmt.Fits.atDepth hfits hs
  refine ⟨hdepth, fun operand hoperand calls name args hcall => ?_⟩
  have hcalls : calls < 64 - depth := (hroom.operand operand hoperand).calls_lt hcall
  omega

/-- Loops inside each other, each on a line. -/
def loopTower (height : Nat) : List Token :=
  (List.range height).flatMap (fun line => [⟨.keyword, "while", line⟩, ⟨.identifier, "x", line⟩,
    ⟨.symbol, "=", line⟩, ⟨.identifier, "x", line⟩]) ++
      List.replicate height ⟨.keyword, "endwhile", height⟩

/-- The bound is reached: of seventy loops inside each other, one is left inside 64 blocks. -/
theorem nesting_bounded_tower :
    (Stmt.atDepth 64 (parseTokens (loopTower 70)).1).length = 1 ∧
      ∀ s ∈ Stmt.atDepth 64 (parseTokens (loopTower 70)).1, ∀ operand ∈ s.operands,
        ∀ calls name args, ¬ operand.Encloses calls (.call name args) := by
  refine ⟨by decide +kernel, fun s hs operand hoperand calls name args hcall => ?_⟩
  have hbound := ((nesting_bounded (loopTower 70)).1 64 s hs).2 operand hoperand
  have hdepth := hbound calls name args hcall
  omega

end DialogueScript
