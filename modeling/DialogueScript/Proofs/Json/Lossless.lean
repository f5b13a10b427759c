import DialogueScript.Command.Json
import DialogueScript.Script.Json
import DialogueScript.Token.Json
import DialogueScript.Value.Json
import Mathlib.Tactic.Common

set_option autoImplicit false

/-!
# JSON forms are lossless

What is written as JSON is read back as it was: tokens, values, commands, expressions, conditions
and statements. Writer and reader go over a tree in the same way, so the only question is whether
the reader, which recurses on a bound, has enough of it. The bound is the depth of what it reads,
and whatever lies inside a value is less deep than the value.

Doubles are left out, because JSON has no numeral for those that are infinite or not a number.

## Main results

* `DialogueScript.Json.depth_lt_of_mem_object`, `DialogueScript.Json.depth_lt_of_mem_array` — parts
  are less deep than the whole.
* `DialogueScript.Expr.ofJsonWithin?_toJson`, `DialogueScript.Stmt.ofJsonWithin?_toJson` — reading
  with a bound.
* `DialogueScript.json_lossless` — all types.
-/

namespace DialogueScript

/-! ## Parts of a value -/

namespace Json

variable {α : Type} {name tag : String} {value body item : Json} {items : List Json}
  {fields : List (String × Json)}

/-- An item is less deep than its array. -/
lemma depth_lt_of_mem_array (h : item ∈ items) : item.depth < (array items).depth := by
  rw [depth, Nat.lt_succ_iff]
  induction items with
  | nil => cases h
  | cons first later ih =>
    rw [depthOfItems]
    rcases List.mem_cons.mp h with rfl | hlater
    · exact Nat.le_max_left _ _
    · exact Nat.le_trans (ih hlater) (Nat.le_max_right _ _)

/-- The value of a field is less deep than its object. -/
lemma depth_lt_of_mem_object (name : String) (h : (name, value) ∈ fields) :
    value.depth < (object fields).depth := by
  rw [depth, Nat.lt_succ_iff]
  induction fields with
  | nil => cases h
  | cons first later ih =>
    rw [depthOfFields]
    rcases List.mem_cons.mp h with rfl | hlater
    · exact Nat.le_max_left _ _
    · exact Nat.le_trans (ih hlater) (Nat.le_max_right _ _)

/-- What stands in a field under a tag is less deep than the whole. -/
lemma depth_lt_of_mem_tagged (name : String) (h : (name, value) ∈ fields) :
    value.depth < (tagged tag (.object fields)).depth :=
  Nat.lt_trans (depth_lt_of_mem_object name h)
    (depth_lt_of_mem_object tag (List.mem_singleton_self _))

/-- The same holds of the items of a list in such a field. -/
lemma depth_lt_of_mem_list (name : String) (hitem : item ∈ items)
    (h : (name, .array items) ∈ fields) : item.depth < (tagged tag (.object fields)).depth :=
  Nat.lt_trans (depth_lt_of_mem_array hitem) (depth_lt_of_mem_tagged name h)

/-! ## Reading parts -/

/-- A variant with a tag is read as that tag and its body. -/
@[simp] lemma variant?_tagged : (tagged tag body).variant? = some (tag, body) :=
  rfl

/-- The first field is found by its own name. -/
@[simp] lemma need?_object_self {decode : Json → Option α} :
    (object ((name, value) :: fields)).need? name decode = decode value := by
  simp [need?, field?, findField?]

/-- Fields with other names are passed over. -/
@[simp] lemma need?_object_of_ne {decode : Json → Option α} {key : String} (h : key ≠ name) :
    (object ((key, value) :: fields)).need? name decode = (object fields).need? name decode := by
  simp [need?, field?, findField?, h]

/-- A string is read as its text. -/
@[simp] lemma string?_string (text : String) : (string text).string? = some text :=
  rfl

/-- A list is read back if each of its items is. -/
lemma list?_array_map {decode : Json → Option α} {encode : α → Json} {as : List α}
    (h : ∀ a ∈ as, decode (encode a) = some a) :
    list? decode (.array (as.map encode)) = some as := by
  simp only [list?, array?, Option.bind_some]
  induction as with
  | nil => rfl
  | cons a as ih =>
    rw [List.map_cons, List.mapM_cons, h a List.mem_cons_self,
      ih fun b hb => h b (List.mem_cons_of_mem a hb)]
    rfl

/-- A list of strings is read back. -/
@[simp] lemma strings?_ofStrings (texts : List String) :
    (ofStrings texts).strings? = some texts :=
  list?_array_map fun _ _ => rfl

end Json

/-! ## Expressions -/

/-- The kind of a literal is read back from its tag. -/
@[simp] lemma LiteralKind.ofJson?_tag (kind : LiteralKind) :
    LiteralKind.ofJson? (.string kind.tag) = some kind := by
  cases kind <;> rfl

/-- An operator is read back from its tag. -/
@[simp] lemma BinaryOp.ofJson?_tag (op : BinaryOp) :
    BinaryOp.ofJson? (.string op.tag) = some op := by
  cases op <;> rfl

/-- Expressions are written one by one. -/
lemma Expr.listToJson_eq_map (es : List Expr) : Expr.listToJson es = es.map Expr.toJson := by
  induction es with
  | nil => rw [Expr.listToJson, List.map_nil]
  | cons e es ih => rw [Expr.listToJson, ih, List.map_cons]

/-- No expression is written as null, which stands for a missing one. -/
lemma Expr.toJson_ne_null (e : Expr) : e.toJson ≠ .null := by
  cases e <;> simp [Expr.toJson, Json.tagged]

/-- An expression that may be missing is read back. No expression is written as `null`, so that
one which is there cannot be taken for a missing one. -/
lemma Json.maybe?_optionToJson (json : Json) (name : String) {operand : Option Expr}
    {decode : Json → Option Expr} (hfield : json.field? name = some (Expr.optionToJson operand))
    (h : ∀ e ∈ operand, decode e.toJson = some e) : json.maybe? name decode = some operand := by
  cases operand with
  | none => simp only [maybe?, hfield, Expr.optionToJson]
  | some e =>
    rw [maybe?, hfield, Expr.optionToJson]
    split
    · next heq => cases heq
    · next heq => exact absurd (Option.some.inj heq) e.toJson_ne_null
    · next heq =>
      obtain rfl := Option.some.inj heq
      rw [h e rfl, Option.map_some]

/-- A comparison is read back if its sides are. -/
lemma Condition.ofJsonWith?_toJson {decode : Json → Option Expr} (condition : Condition)
    (hleft : ∀ e ∈ condition.left, decode e.toJson = some e)
    (hright : ∀ e ∈ condition.right, decode e.toJson = some e) :
    Condition.ofJsonWith? decode condition.toJson = some condition := by
  have hl := Json.maybe?_optionToJson condition.toJson "left" rfl hleft
  have hr := Json.maybe?_optionToJson condition.toJson "right" rfl hright
  have hop : condition.toJson.need? "op" BinaryOp.ofJson? = some condition.op :=
    condition.op.ofJson?_tag
  rw [ofJsonWith?, hl, hop, hr]
  rfl

/-- **Expressions are read back** by a reader with a bound that is not less than their depth. -/
lemma Expr.ofJsonWithin?_toJson {fuel : Nat} {e : Expr} (h : e.toJson.depth ≤ fuel) :
    Expr.ofJsonWithin? fuel e.toJson = some e := by
  induction fuel generalizing e with
  | zero => cases e <;> simp [Expr.toJson, Json.tagged, Json.depth] at h
  | succ fuel ih =>
    cases e with
    | literal kind text => simp [Expr.toJson, Expr.ofJsonWithin?]
    | var name => simp [Expr.toJson, Expr.ofJsonWithin?]
    | call name args =>
      have hargs : Json.list? (Expr.ofJsonWithin? fuel) (.array (args.map Expr.toJson)) =
          some args := by
        refine Json.list?_array_map fun e he => ih (Nat.le_of_lt_succ (Nat.lt_of_lt_of_le ?_ h))
        rw [Expr.toJson, Expr.listToJson_eq_map]
        exact Json.depth_lt_of_mem_list "args" (List.mem_map_of_mem he) (by simp)
      simp [Expr.toJson, Expr.ofJsonWithin?, Expr.listToJson_eq_map, hargs]
    | binary left op right =>
      have hside : ∀ (name : String) (side : Option Expr),
          (name, Expr.optionToJson side) ∈ [("left", Expr.optionToJson left),
            ("op", .string op.tag), ("right", Expr.optionToJson right)] →
          ∀ e ∈ side, Expr.ofJsonWithin? fuel e.toJson = some e := by
        rintro name _ hmem e rfl
        refine ih (Nat.le_of_lt_succ (Nat.lt_of_lt_of_le ?_ h))
        rw [Expr.toJson]
        exact Json.depth_lt_of_mem_tagged name hmem
      have hcondition : Condition.ofJsonWith? (Expr.ofJsonWithin? fuel)
          (op.toJsonWith (Expr.optionToJson left) (Expr.optionToJson right)) =
          some ⟨left, op, right⟩ :=
        Condition.ofJsonWith?_toJson ⟨left, op, right⟩ (hside "left" left (by simp))
          (hside "right" right (by simp))
      simp [Expr.toJson, Expr.ofJsonWithin?, hcondition, Condition.toExpr]

/-- An expression is read back. -/
@[simp] lemma Expr.ofJson?_toJson (e : Expr) : Expr.ofJson? e.toJson = some e :=
  Expr.ofJsonWithin?_toJson (Nat.le_refl _)

/-- A list of expressions is read back. -/
@[simp] lemma Expr.list?_listToJson (es : List Expr) :
    Json.list? Expr.ofJson? (.array (Expr.listToJson es)) = some es := by
  rw [Expr.listToJson_eq_map]
  exact Json.list?_array_map fun e _ => e.ofJson?_toJson

/-- A condition is read back. -/
@[simp] lemma Condition.ofJson?_toJson (condition : Condition) :
    Condition.ofJson? condition.toJson = some condition :=
  condition.ofJsonWith?_toJson (fun e _ => e.ofJson?_toJson) fun e _ => e.ofJson?_toJson

/-! ## Statements -/

/-- Statements are written one by one. -/
lemma Stmt.listToJson_eq_map (statements : List Stmt) :
    Stmt.listToJson statements = statements.map Stmt.toJson := by
  induction statements with
  | nil => rw [Stmt.listToJson, List.map_nil]
  | cons s later ih => rw [Stmt.listToJson, ih, List.map_cons]

/-- Cases are written one by one. -/
lemma CaseBlock.listToJson_eq_map (cases : List CaseBlock) :
    CaseBlock.listToJson cases = cases.map CaseBlock.toJson := by
  induction cases with
  | nil => rw [CaseBlock.listToJson, List.map_nil]
  | cons block later ih => rw [CaseBlock.listToJson, ih, List.map_cons]

/-- A case is read back if its statements are. -/
lemma CaseBlock.ofJsonWith?_toJson {decode : Json → Option Stmt} {block : CaseBlock}
    (h : Json.list? decode (.array (Stmt.listToJson block.body)) = some block.body) :
    CaseBlock.ofJsonWith? decode block.toJson = some block := by
  obtain ⟨value, body⟩ := block
  simp [CaseBlock.toJson, CaseBlock.ofJsonWith?, h]

/-- **Statements are read back** by a reader with a bound that is not less than their depth. -/
lemma Stmt.ofJsonWithin?_toJson {fuel : Nat} {s : Stmt} (h : s.toJson.depth ≤ fuel) :
    Stmt.ofJsonWithin? fuel s.toJson = some s := by
  induction fuel generalizing s with
  | zero => cases s <;> simp [Stmt.toJson, Json.tagged, Json.depth] at h
  | succ fuel ih =>
    -- A block is read back because its statements are less deep than the statement it lies in.
    have hblock : ∀ (name : String) (block : List Stmt) {tag : String}
        {fields : List (String × Json)}, s.toJson = .tagged tag (.object fields) →
        (name, .array (Stmt.listToJson block)) ∈ fields →
        Json.list? (Stmt.ofJsonWithin? fuel) (.array (Stmt.listToJson block)) = some block := by
      intro name block tag fields hs hfield
      rw [Stmt.listToJson_eq_map] at hfield ⊢
      refine Json.list?_array_map fun t ht => ih (Nat.le_of_lt_succ (Nat.lt_of_lt_of_le ?_ h))
      rw [hs]
      exact Json.depth_lt_of_mem_list name (List.mem_map_of_mem ht) hfield
    cases s with
    | assign name value => simp [Stmt.toJson, Stmt.ofJsonWithin?]
    | call name args => simp [Stmt.toJson, Stmt.ofJsonWithin?]
    | declare name params body =>
      have hbody := hblock "body" body (by rw [Stmt.toJson]) (by simp)
      simp [Stmt.toJson, Stmt.ofJsonWithin?, hbody]
    | globals names => simp [Stmt.toJson, Stmt.ofJsonWithin?]
    | locals names => simp [Stmt.toJson, Stmt.ofJsonWithin?]
    | branch condition thenBody elseBody =>
      have hthen := hblock "then_body" thenBody (by rw [Stmt.toJson]) (by simp)
      have helse := hblock "else_body" elseBody (by rw [Stmt.toJson]) (by simp)
      simp [Stmt.toJson, Stmt.ofJsonWithin?, hthen, helse]
    | select selector cases =>
      have hcases : Json.list? (CaseBlock.ofJsonWith? (Stmt.ofJsonWithin? fuel))
          (.array (cases.map CaseBlock.toJson)) = some cases := by
        refine Json.list?_array_map fun block hmem => CaseBlock.ofJsonWith?_toJson ?_
        rw [Stmt.listToJson_eq_map]
        refine Json.list?_array_map fun t ht => ih (Nat.le_of_lt_succ (Nat.lt_of_lt_of_le ?_ h))
        -- The statement lies in its case, and the case in the list of cases.
        have hcase : t.toJson.depth < block.toJson.depth := by
          obtain ⟨value, body⟩ := block
          rw [CaseBlock.toJson, Stmt.listToJson_eq_map]
          exact Nat.lt_trans (Json.depth_lt_of_mem_array (List.mem_map_of_mem ht))
            (Json.depth_lt_of_mem_object "body" (by simp))
        refine Nat.lt_trans hcase ?_
        rw [Stmt.toJson, CaseBlock.listToJson_eq_map]
        exact Json.depth_lt_of_mem_list "cases" (List.mem_map_of_mem hmem) (by simp)
      simp [Stmt.toJson, Stmt.ofJsonWithin?, CaseBlock.listToJson_eq_map, hcases]
    | loop condition body =>
      have hbody := hblock "body" body (by rw [Stmt.toJson]) (by simp)
      simp [Stmt.toJson, Stmt.ofJsonWithin?, hbody]
    | ret value =>
      have hvalue := Json.maybe?_optionToJson (.object [("value", Expr.optionToJson value)])
        "value" rfl fun e _ => e.ofJson?_toJson
      simp [Stmt.toJson, Stmt.ofJsonWithin?, Json.isObject, hvalue]
    | exitCode => simp [Stmt.toJson, Stmt.ofJsonWithin?, Json.variant?]

/-- A statement is read back. -/
@[simp] lemma Stmt.ofJson?_toJson (s : Stmt) : Stmt.ofJson? s.toJson = some s :=
  Stmt.ofJsonWithin?_toJson (Nat.le_refl _)

/-! ## Tokens, values and commands -/

/-- A command is read back. -/
lemma Command.ofJson?_toJson (command : Command) :
    Command.ofJson? command.toJson = some command := by
  cases command <;> rfl

/-- The kind of a token is read back from its tag. -/
lemma TokenKind.ofJson?_tag (kind : TokenKind) :
    TokenKind.ofJson? (.string kind.tag) = some kind := by
  cases kind <;> rfl

/-- A token is read back if its line fits in a word. -/
lemma Token.ofJson?_toJson {token : Token} (h : token.line < UInt64.size) :
    Token.ofJson? token.toJson = some token := by
  obtain ⟨kind, text, line⟩ := token
  simp [Token.toJson, Token.ofJson?, Json.field?, Json.findField?, TokenKind.ofJson?_tag,
    Json.ofNat, Json.nat?, fitsWord, h]

/-- A value that is no double is read back. -/
lemma Value.ofJson?_toJson {value : Value} (h : ∀ x, value ≠ .float x) :
    Value.ofJson? value.toJson = some value := by
  cases value with
  | integer n =>
    have hfits : Text.fitsInt64 n.toInt = true := by
      rw [Text.fitsInt64, Bool.and_eq_true, decide_eq_true_eq, decide_eq_true_eq]
      exact ⟨n.minValue_le_toInt, n.toInt_le⟩
    simp [Value.toJson, Value.ofJson?, hfits]
  | float x => exact absurd rfl (h x)
  | _ => rfl

/-- **JSON forms are lossless.** Whatever statement, expression, condition or command is written as
JSON, at whatever depth of nesting, is read back as it was; so is every token whose line is a 64-bit
word, as all lines are that a machine counts, and every value that is no double.

**Proof sketch.** A reader that is given a bound reads back everything that is not deeper than the
bound (`Expr.ofJsonWithin?_toJson`, `Stmt.ofJsonWithin?_toJson`), by induction on the bound: what
lies inside is less deep (`Json.depth_lt_of_mem_list`). The readers are given the depth itself. -/
theorem json_lossless :
    (∀ s : Stmt, Stmt.ofJson? s.toJson = some s) ∧
      (∀ e : Expr, Expr.ofJson? e.toJson = some e) ∧
      (∀ condition : Condition, Condition.ofJson? condition.toJson = some condition) ∧
      (∀ command : Command, Command.ofJson? command.toJson = some command) ∧
      (∀ token : Token, token.line < UInt64.size → Token.ofJson? token.toJson = some token) ∧
      ∀ value : Value, (∀ x, value ≠ .float x) → Value.ofJson? value.toJson = some value :=
  ⟨Stmt.ofJson?_toJson, Expr.ofJson?_toJson, Condition.ofJson?_toJson, Command.ofJson?_toJson,
    fun _ => Token.ofJson?_toJson, fun _ => Value.ofJson?_toJson⟩

/-- A loop with half a condition, in which a comparison is an argument of a call and a case holds a
statement without arguments; the last line of all; and the least integer. -/
theorem json_lossless_loop :
    let s : Stmt := .loop ⟨none, .notEq, some (.call "f" [.binary (some (.var "x")) .and none])⟩
      [.select (.bool true) [⟨.number "1", [.exitCode, .ret none]⟩, ⟨.string "null", []⟩]]
    let token : Token := ⟨.eof, "", UInt64.size - 1⟩
    let value : Value := .integer Int64.minValue
    Stmt.ofJson? s.toJson = some s ∧
      (token.line < UInt64.size ∧ Token.ofJson? token.toJson = some token) ∧
      (∀ x, value ≠ .float x) ∧ Value.ofJson? value.toJson = some value := by
  intro s token value
  obtain ⟨hstmt, -, -, -, htoken, hvalue⟩ := json_lossless
  have hline : token.line < UInt64.size := by decide
  have hinteger : ∀ x, value ≠ .float x := by
    simp [value]
  exact ⟨hstmt s, ⟨hline, htoken token hline⟩, hinteger, hvalue value hinteger⟩

end DialogueScript
