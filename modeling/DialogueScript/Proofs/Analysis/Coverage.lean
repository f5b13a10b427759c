import DialogueScript.Analysis.Check
import DialogueScript.Proofs.Script.Callee

set_option autoImplicit false

/-!
# What a check covers

A check looks at every call, every declaration and every `return`, wherever it stands. So a script
without a diagnostic calls only functions that it declares or that are built in, declares functions
only outside of blocks, and returns only inside of functions.

Membership among the occurrences follows the tree: an occurrence is the statement itself, or lies
in an expression of it, or in one of its blocks (`DialogueScript.Stmt.mem_occurrences`). The rest
is induction along the blocks.

## Main definitions

* `DialogueScript.Stmt.own` — what a statement itself is to a check.
* `DialogueScript.Place.inside` — the place of what lies in the blocks of a statement.

## Main results

* `DialogueScript.Stmt.block_induction` — induction along the blocks of a statement.
* `DialogueScript.Stmt.mem_occurrences` — where occurrences come from.
* `DialogueScript.Script.exists_warning_of_calls` — an undefined function that is called has a
  warning.
* `DialogueScript.Script.sound_of_analyze_eq_nil` — what no diagnostic means.
-/

namespace DialogueScript

/-! ## Induction along the blocks -/

/-- What stands in a block of a statement is smaller than the statement. -/
lemma Stmt.sizeOf_lt_of_mem_childBlocks {s t : Stmt} {block : List Stmt}
    (hblock : block ∈ s.childBlocks) (ht : t ∈ block) : sizeOf t < sizeOf s := by
  have hlt := List.sizeOf_lt_of_mem ht
  cases s with
  | declare name params body =>
    obtain rfl : block = body := by simpa [Stmt.childBlocks] using hblock
    simp only [Stmt.declare.sizeOf_spec]
    omega
  | branch condition thenBody elseBody =>
    simp only [Stmt.branch.sizeOf_spec]
    rcases (by simpa [Stmt.childBlocks] using hblock : block = thenBody ∨ block = elseBody)
      with rfl | rfl <;> omega
  | select selector cases =>
    obtain ⟨⟨value, body⟩, hcase, rfl⟩ := List.mem_map.mp hblock
    have hsize := List.sizeOf_lt_of_mem hcase
    simp only [CaseBlock.mk.sizeOf_spec, Stmt.select.sizeOf_spec] at hlt hsize ⊢
    omega
  | loop condition body =>
    obtain rfl : block = body := by simpa [Stmt.childBlocks] using hblock
    simp only [Stmt.loop.sizeOf_spec]
    omega
  | _ => simp [Stmt.childBlocks] at hblock

/-- **Induction along the blocks**: what holds of a statement as soon as it holds of everything in
its blocks holds of all statements. -/
theorem Stmt.block_induction {P : Stmt → Prop}
    (step : ∀ s : Stmt, (∀ block ∈ s.childBlocks, ∀ t ∈ block, P t) → P s) (s : Stmt) : P s :=
  step s fun _ hblock t ht =>
    have := Stmt.sizeOf_lt_of_mem_childBlocks hblock ht
    Stmt.block_induction step t
termination_by sizeOf s

/-! ## Where occurrences come from -/

/-- What occurs in some expressions occurs in one of them. -/
lemma Expr.mem_listOccurrences {o : Occurrence} {place : Place} {es : List Expr} :
    o ∈ Expr.listOccurrences place es ↔ ∃ e ∈ es, o ∈ e.occurrences place := by
  induction es with
  | nil => simp [Expr.listOccurrences]
  | cons e es ih => simp [Expr.listOccurrences, ih]

/-- What occurs in an expression that may be missing occurs in it if it is there. -/
lemma Expr.mem_optionOccurrences {o : Occurrence} {place : Place} {operand : Option Expr} :
    o ∈ Expr.optionOccurrences place operand ↔ ∃ e ∈ operand.toList, o ∈ e.occurrences place := by
  cases operand with
  | none => simp [Expr.optionOccurrences]
  | some e => simp [Expr.optionOccurrences]

/-- What occurs in a condition occurs in one of its sides. -/
lemma Condition.mem_occurrences {o : Occurrence} {place : Place} {condition : Condition} :
    o ∈ condition.occurrences place ↔ ∃ e ∈ condition.operands, o ∈ e.occurrences place := by
  simp [Condition.occurrences, Condition.operands, Expr.mem_optionOccurrences, or_and_right,
    exists_or]

/-- What occurs in some statements occurs in one of them. -/
lemma Stmt.mem_listOccurrences {o : Occurrence} {place : Place} {statements : List Stmt} :
    o ∈ Stmt.listOccurrences place statements ↔ ∃ s ∈ statements, o ∈ s.occurrences place := by
  induction statements with
  | nil => simp [Stmt.listOccurrences]
  | cons s later ih => simp [Stmt.listOccurrences, ih]

/-- What occurs in some cases occurs in the value of one of them, or one place deeper in its body.
-/
lemma CaseBlock.mem_listOccurrences {o : Occurrence} {place : Place} {cases : List CaseBlock} :
    o ∈ CaseBlock.listOccurrences place cases ↔ ∃ block ∈ cases,
      o ∈ block.value.occurrences place ∨ ∃ t ∈ block.body, o ∈ t.occurrences place.inBlock := by
  induction cases with
  | nil => simp [CaseBlock.listOccurrences]
  | cons block later ih =>
    obtain ⟨value, body⟩ := block
    simp [CaseBlock.listOccurrences, CaseBlock.occurrences, ih, Stmt.mem_listOccurrences, or_assoc]

/-- What a statement itself is to a check, without what lies in it. -/
def Stmt.own (place : Place) : Stmt → List Occurrence
  | .call name _ => [.call name place]
  | .declare name _ _ => [.declaration name place]
  | .ret _ => [.ret place]
  | _ => []

/-- The place of what lies in the blocks of a statement at the given place. -/
def Place.inside (place : Place) (s : Stmt) : Place :=
  match s.function? with
  | some decl => Place.inFunction decl.name
  | none => place.inBlock

/-- **Where occurrences come from**: the statement itself, its expressions and its blocks. -/
lemma Stmt.mem_occurrences {o : Occurrence} {place : Place} {s : Stmt} :
    o ∈ s.occurrences place ↔ o ∈ s.own place ∨ (∃ e ∈ s.operands, o ∈ e.occurrences place) ∨
      ∃ block ∈ s.childBlocks, ∃ t ∈ block, o ∈ t.occurrences (place.inside s) := by
  cases s with
  | select selector cases =>
    simp only [Stmt.occurrences, List.mem_append, CaseBlock.mem_listOccurrences, Stmt.own,
      Stmt.operands, Stmt.childBlocks, Place.inside, Stmt.function?]
    simp [and_or_left, exists_or, or_assoc]
  | _ =>
    simp [Stmt.occurrences, Stmt.own, Stmt.operands, Stmt.childBlocks, Place.inside,
      Stmt.function?, Expr.mem_listOccurrences, Expr.mem_optionOccurrences,
      Condition.mem_occurrences, Stmt.mem_listOccurrences]

/-! ## Calls -/

mutual

/-- Only calls occur in an expression, all at its place. -/
lemma Expr.eq_call_of_mem_occurrences {o : Occurrence} {place : Place} : (e : Expr) →
    o ∈ e.occurrences place → ∃ name, o = .call name place
  | .literal _ _, h => by simp [Expr.occurrences] at h
  | .var _, h => by simp [Expr.occurrences] at h
  | .call name args, h => by
    rcases List.mem_cons.mp h with rfl | h
    · exact ⟨name, rfl⟩
    · exact Expr.eq_call_of_mem_listOccurrences args h
  | .binary left _ right, h => by
    rcases List.mem_append.mp h with h | h
    · exact Expr.eq_call_of_mem_optionOccurrences left h
    · exact Expr.eq_call_of_mem_optionOccurrences right h

/-- Nothing occurs in expressions but calls, all of them at the place of the expressions. -/
lemma Expr.eq_call_of_mem_listOccurrences {o : Occurrence} {place : Place} : (es : List Expr) →
    o ∈ Expr.listOccurrences place es → ∃ name, o = .call name place
  | [], h => by simp [Expr.listOccurrences] at h
  | e :: es, h => by
    rcases List.mem_append.mp h with h | h
    · exact Expr.eq_call_of_mem_occurrences e h
    · exact Expr.eq_call_of_mem_listOccurrences es h

/-- Nothing occurs in an expression that may be missing but calls. -/
lemma Expr.eq_call_of_mem_optionOccurrences {o : Occurrence} {place : Place} :
    (operand : Option Expr) → o ∈ Expr.optionOccurrences place operand →
    ∃ name, o = .call name place
  | none, h => by simp [Expr.optionOccurrences] at h
  | some e, h => Expr.eq_call_of_mem_occurrences e h

end

/-- A check looks at every call in an expression. -/
lemma Expr.Calls.mem_occurrences {name : String} {e : Expr} (h : e.Calls name) (place : Place) :
    .call name place ∈ e.occurrences place := by
  induction h with
  | here => simp [Expr.occurrences]
  | arg he _ ih =>
    exact List.mem_cons_of_mem _ (Expr.mem_listOccurrences.mpr ⟨_, he, ih⟩)
  | left _ ih => exact List.mem_append_left _ ih
  | right _ ih => exact List.mem_append_right _ ih

/-- A check looks at every call in a statement. -/
lemma Stmt.Calls.mem_occurrences {name : String} {s : Stmt} (h : s.Calls name) :
    ∀ place, ∃ place', .call name place' ∈ s.occurrences place := by
  induction h with
  | here => exact fun place => ⟨place, by simp [Stmt.occurrences]⟩
  | operand he h =>
    exact fun place =>
      ⟨place, Stmt.mem_occurrences.mpr (.inr (.inl ⟨_, he, h.mem_occurrences place⟩))⟩
  | @inside s t block hblock ht _ ih =>
    intro place
    obtain ⟨place', hmem⟩ := ih (place.inside s)
    exact ⟨place', Stmt.mem_occurrences.mpr (.inr (.inr ⟨block, hblock, t, ht, hmem⟩))⟩

/-! ## Returns -/

/-- Outside of functions, a check sees every `return` outside of functions. -/
lemma Stmt.Returns.mem_occurrences {s : Stmt} (h : s.Returns) :
    ∀ place : Place, place.function = none →
      ∃ place' : Place, place'.function = none ∧ .ret place' ∈ s.occurrences place := by
  induction h with
  | here => exact fun place hplace => ⟨place, hplace, by simp [Stmt.occurrences]⟩
  | @inside s t block hs hblock ht _ ih =>
    intro place hplace
    have hinside : place.inside s = place.inBlock := by simp [Place.inside, hs]
    obtain ⟨place', hplace', hmem⟩ := ih place.inBlock hplace
    rw [← hinside] at hmem
    exact ⟨place', hplace', Stmt.mem_occurrences.mpr (.inr (.inr ⟨block, hblock, t, ht, hmem⟩))⟩

/-! ## Declarations -/

/-- What lies in the blocks of a statement does not stand outside of blocks. -/
lemma Place.topLevel_inside (place : Place) (s : Stmt) : (place.inside s).topLevel = false := by
  rw [Place.inside]
  split <;> rfl

/-- Inside of blocks no declaration stands outside of blocks. -/
lemma Stmt.topLevel_of_mem_occurrences {name : String} {place' : Place} (s : Stmt) :
    ∀ place : Place, place.topLevel = false → .declaration name place' ∈ s.occurrences place →
      place'.topLevel = false := by
  induction s using Stmt.block_induction with
  | step s ih =>
    intro place hplace hmem
    rcases Stmt.mem_occurrences.mp hmem with hown | ⟨e, -, he⟩ | ⟨block, hblock, t, ht, hmem⟩
    · cases s <;> simp [Stmt.own] at hown
      exact hown.2 ▸ hplace
    · obtain ⟨callee, hcall⟩ := Expr.eq_call_of_mem_occurrences e he
      cases hcall
    · exact ih block hblock t ht _ (Place.topLevel_inside place s) hmem

/-- A declaration that stands outside of blocks is a statement of the script. -/
lemma Stmt.exists_declare_of_topLevel {name : String} {place : Place} {statements : List Stmt}
    (hmem : .declaration name place ∈ Stmt.listOccurrences Place.outside statements)
    (hplace : place.topLevel = true) :
    ∃ params body, Stmt.declare name params body ∈ statements := by
  obtain ⟨s, hs, hmem⟩ := Stmt.mem_listOccurrences.mp hmem
  rcases Stmt.mem_occurrences.mp hmem with hown | ⟨e, -, he⟩ | ⟨block, hblock, t, ht, hmem⟩
  · cases s <;> simp [Stmt.own] at hown
    obtain ⟨rfl, -⟩ := hown
    exact ⟨_, _, hs⟩
  · obtain ⟨callee, hcall⟩ := Expr.eq_call_of_mem_occurrences e he
    cases hcall
  · have hfalse := Stmt.topLevel_of_mem_occurrences t _ (Place.topLevel_inside _ s) hmem
    rw [hplace] at hfalse
    cases hfalse

/-! ## Findings -/

/-- Whatever there is to note about one of some occurrences is noted. -/
lemma exists_findings_subset {o : Occurrence} {os : List Occurrence} (ho : o ∈ os)
    (declared seen : List String) :
    ∃ seen', o.findings declared seen' ⊆ findings declared seen os := by
  induction os generalizing seen with
  | nil => simp at ho
  | cons first later ih =>
    rcases List.mem_cons.mp ho with rfl | ho
    · exact ⟨seen, List.subset_append_left _ _⟩
    · obtain ⟨seen', hsub⟩ := ih ho (seen ++ first.declared?.toList)
      exact ⟨seen', List.Subset.trans hsub (List.subset_append_right _ _)⟩

namespace Script

variable {script : Script}

/-- **A call of an undefined function has a warning.** -/
theorem exists_warning_of_calls {name : String} {s : Stmt} (hs : s ∈ script.statements)
    (hcalls : s.Calls name) (hdeclared : name ∉ script.declared)
    (hbuiltin : Builtin.isName name = false) :
    ∃ d ∈ script.analyze, d.level = .warn ∧
      d.message = "调用了未定义的函数: **" ++ name ++ "**" := by
  obtain ⟨place, hmem⟩ := hcalls.mem_occurrences Place.outside
  have hocc : .call name place ∈ Stmt.listOccurrences Place.outside script.statements :=
    Stmt.mem_listOccurrences.mpr ⟨s, hs, hmem⟩
  obtain ⟨seen, hsub⟩ := exists_findings_subset hocc script.declared []
  have hfinding : Finding.undefinedFunction name place ∈ script.findings := by
    refine hsub ?_
    simp [Occurrence.findings, hdeclared, hbuiltin]
  refine ⟨Finding.toDiagnostic script.id (.undefinedFunction name place), ?_, rfl, rfl⟩
  exact List.mem_append_right _ (List.mem_map_of_mem hfinding)

/-- **A script without a diagnostic** calls only what it declares or what is built in, declares
functions only outside of blocks, and does not return outside of functions. -/
theorem sound_of_analyze_eq_nil (h : script.analyze = []) :
    (∀ s ∈ script.statements,
        s.CallsOnly fun name => name ∈ script.declared ∨ Builtin.isName name = true) ∧
      (∀ name ∈ script.declared, ∃ params body, Stmt.declare name params body ∈ script.statements) ∧
      ∀ s ∈ script.statements, ¬ s.Returns := by
  have hnone : ∀ o ∈ Stmt.listOccurrences Place.outside script.statements,
      ∃ seen, o.findings script.declared seen = [] := by
    intro o ho
    have hfindings : script.findings = [] := by
      simpa using (List.append_eq_nil_iff.mp h).2
    obtain ⟨seen, hsub⟩ := exists_findings_subset ho script.declared []
    rw [Script.findings] at hfindings
    exact ⟨seen, List.subset_nil.mp (hfindings ▸ hsub)⟩
  refine ⟨fun s hs name hcalls => ?_, fun name hname => ?_, fun s hs hreturns => ?_⟩
  · obtain ⟨place, hmem⟩ := hcalls.mem_occurrences Place.outside
    obtain ⟨seen, hfindings⟩ := hnone _ (Stmt.mem_listOccurrences.mpr ⟨s, hs, hmem⟩)
    simpa [Occurrence.findings, or_iff_not_imp_left] using hfindings
  · obtain ⟨o, ho, hdeclared⟩ := List.mem_filterMap.mp hname
    cases o with
    | declaration declared place =>
      obtain rfl : declared = name := by simpa [Occurrence.declared?] using hdeclared
      obtain ⟨seen, hfindings⟩ := hnone _ ho
      have hplace : place.topLevel = true := by
        simpa using (List.append_eq_nil_iff.mp hfindings).2
      exact Stmt.exists_declare_of_topLevel ho hplace
    | call _ _ => simp [Occurrence.declared?] at hdeclared
    | ret _ => simp [Occurrence.declared?] at hdeclared
  · obtain ⟨place, hplace, hmem⟩ := hreturns.mem_occurrences Place.outside rfl
    obtain ⟨seen, hfindings⟩ := hnone _ (Stmt.mem_listOccurrences.mpr ⟨s, hs, hmem⟩)
    simp [Occurrence.findings, hplace] at hfindings

end Script

end DialogueScript
