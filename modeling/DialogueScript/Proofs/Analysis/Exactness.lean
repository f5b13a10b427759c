import DialogueScript.Proofs.Analysis.Preorder
import Mathlib.Data.List.Infix

set_option autoImplicit false

/-!
# What a check notes

What a check notes about a script is settled visit by visit on the walk through it: the node and
the statements around it say whether there is something to note, and of the visits before it only
the names count that they declare (`DialogueScript.Visit.findings`). This is a second account of a
check, without places handed down and names collected on the way, and the two agree on every
script.

**Proof sketch.** What there is to note about a visit is what there is to note about the occurrence
that the node is. The names that a check has collected when it comes to an occurrence are the names
that the visits before it declare, so the findings are noted visit by visit
(`DialogueScript.findings_visits`, by induction on the walk with the visits already made). How
often a repetition is noted follows from the same pass over the occurrences.

## Main definitions

* `DialogueScript.Visit.findings` — what there is to note about a visit.
* `DialogueScript.Finding.level` — how serious a finding is.

## Main results

* `DialogueScript.findings_visits` — findings visit by visit.
* `DialogueScript.count_repeatedDeclaration` — how often a repetition is noted.
* `DialogueScript.check_exact` — the diagnostics of a script.
-/

namespace DialogueScript

/-! ## Findings of a visit -/

namespace Visit

/-- What there is to note about a visit, when the functions in `declared` are declared somewhere:
a call of a function that is neither declared nor built in, the second declaration of a function,
a declaration that stands in a block, and a `return` with no declaration around it. -/
def findings (declared : List String) (earlier : List Visit) (v : Visit) : List Finding :=
  match v.node with
  | .stmt (.call name _) | .expr (.call name _) =>
    if name ∈ declared ∨ Builtin.isName name = true then [] else [.undefinedFunction name v.place]
  | .stmt (.declare name _ _) =>
    (if (earlier.filterMap declared?).count name = 1 then [.repeatedDeclaration name] else []) ++
      (if v.around.isEmpty then [] else [.nestedDeclaration name v.place])
  | .stmt (.ret _) =>
    if v.around.any fun s => s.function?.isSome then [] else [.returnOutside]
  | _ => []

/-- A visit is outside of functions if no statement around it declares one. -/
lemma isNone_function_place (v : Visit) :
    v.place.function.isNone = !v.around.any fun s => s.function?.isSome := by
  unfold place
  rw [Option.isNone_map, Bool.eq_iff_iff]
  simp

/-- What there is to note about a visit is what there is to note about what the node is to a
check, after the names that the earlier visits declare. -/
lemma findings_eq (declared : List String) (earlier : List Visit) (v : Visit) :
    v.findings declared earlier =
      v.own.flatMap (Occurrence.findings declared (earlier.filterMap declared?)) := by
  have hcall : ∀ name, (if name ∈ declared ∨ Builtin.isName name = true then []
      else [Finding.undefinedFunction name v.place]) =
        Occurrence.findings declared (earlier.filterMap declared?) (.call name v.place) := by
    intro name
    simp [Occurrence.findings]
  obtain ⟨around, s | e⟩ := v
  · cases s with
    | call name args => simpa [findings, own, Stmt.own] using hcall name
    | ret value =>
      have hplace := isNone_function_place ⟨around, .stmt (.ret value)⟩
      simp only [findings, own, Stmt.own, List.flatMap_singleton, Occurrence.findings, hplace]
      cases around.any fun s => s.function?.isSome <;> rfl
    | declare name params body =>
      simp [findings, own, Stmt.own, Occurrence.findings, place]
    | _ => rfl
  · cases e with
    | call name args => simpa [findings, own, Expr.own] using hcall name
    | _ => rfl

end Visit

/-! ## Findings along a walk -/

/-- **Findings visit by visit**, when the visits in `past` come before. -/
lemma findings_visits (declared : List String) (past vs : List Visit) :
    findings declared (past.filterMap Visit.declared?) (vs.flatMap Visit.own) =
      (vs.inits.zip vs).flatMap fun (earlier, v) => v.findings declared (past ++ earlier) := by
  induction vs generalizing past with
  | nil => rfl
  | cons v vs ih =>
    have hlater : ((vs.inits.map (v :: ·)).zip vs).flatMap (fun (earlier, w) =>
          w.findings declared (past ++ earlier)) =
        findings declared ((past ++ [v]).filterMap Visit.declared?) (vs.flatMap Visit.own) := by
      rw [ih (past ++ [v]), List.zip_map_left, List.flatMap_map]
      simp
    have hseen : (past ++ [v]).filterMap Visit.declared? =
        past.filterMap Visit.declared? ++ v.own.filterMap Occurrence.declared? := by
      rw [List.filterMap_append, v.filterMap_own]
      cases hdeclared : v.declared? <;> simp [hdeclared]
    rw [List.inits_cons, List.zip_cons_cons, List.flatMap_cons, List.flatMap_cons]
    refine Eq.trans ?_ (congrArg (v.findings declared (past ++ []) ++ ·) hlater.symm)
    rw [hseen, List.append_nil, Visit.findings_eq]
    -- The node itself is nothing to a check, or a single occurrence.
    rcases v.own_eq_nil_or with hown | ⟨o, hown⟩
    · simp [hown]
    · cases hdeclared : o.declared? <;> simp [hown, findings, hdeclared]

/-- A repetition is noted at the second declaration. -/
lemma Occurrence.count_repeatedDeclaration (declared seen : List String) (name : String)
    (o : Occurrence) :
    (o.findings declared seen).count (.repeatedDeclaration name) =
      if o.declared? = some name ∧ seen.count name = 1 then 1 else 0 := by
  cases o with
  | declaration other place =>
    have hnested : (if place.topLevel then [] else [Finding.nestedDeclaration other place]).count
        (.repeatedDeclaration name) = 0 := by
      split <;> simp
    simp only [Occurrence.findings, Occurrence.declared?, List.count_append, hnested,
      Nat.add_zero, Option.some.injEq]
    by_cases hname : other = name
    · subst hname
      by_cases hcount : seen.count other = 1 <;> simp [hcount]
    · by_cases hcount : seen.count other = 1 <;> simp [hcount, hname]
  | call other place =>
    simp only [Occurrence.findings, Occurrence.declared?]
    split <;> simp
  | ret place =>
    simp only [Occurrence.findings, Occurrence.declared?]
    split <;> simp

/-- **How often a repetition is noted**: once, as soon as there are two declarations. -/
lemma count_repeatedDeclaration (declared seen : List String) (name : String)
    (os : List Occurrence) :
    (findings declared seen os).count (.repeatedDeclaration name) =
      if seen.count name ≤ 1 ∧
          2 ≤ seen.count name + (os.filterMap Occurrence.declared?).count name then 1 else 0 := by
  induction os generalizing seen with
  | nil =>
    rw [findings, List.count_nil, if_neg]
    rw [List.filterMap_nil, List.count_nil]
    omega
  | cons o os ih =>
    have hcons : (o :: os).filterMap Occurrence.declared? =
        o.declared?.toList ++ os.filterMap Occurrence.declared? := by
      cases hdeclared : o.declared? <;> simp [hdeclared]
    rw [findings, List.count_append, ih, Occurrence.count_repeatedDeclaration, hcons,
      List.count_append, List.count_append]
    by_cases hname : o.declared? = some name
    · have hone : o.declared?.toList.count name = 1 := by simp [hname]
      rw [hone]
      simp only [hname, true_and]
      split_ifs <;> omega
    · have hzero : o.declared?.toList.count name = 0 := by
        rw [List.count_eq_zero, Option.mem_toList]
        exact hname
      simp only [hname, hzero, false_and, if_false, Nat.add_zero, Nat.zero_add]

/-! ## The diagnostics of a script -/

/-- How serious a finding is. -/
def Finding.level : Finding → Level
  | .undefinedFunction _ _ | .repeatedDeclaration _ => .warn
  | .nestedDeclaration _ _ | .returnOutside => .info

/-- A finding is reported at its own level. -/
lemma Finding.level_toDiagnostic (scriptId : String) (f : Finding) :
    (f.toDiagnostic scriptId).level = f.level := by
  cases f <;> rfl

namespace Script

/-- The findings of a script, visit by visit. -/
lemma findings_eq (script : Script) :
    script.findings = ((walks script.statements).inits.zip (walks script.statements)).flatMap
      fun (earlier, v) => v.findings script.declared earlier := by
  rw [Script.findings, ← flatMap_own_walks]
  simpa using findings_visits script.declared [] (walks script.statements)

/-- Only what was wrong with the source is an error. -/
lemma filter_error_analyze (script : Script) :
    (script.analyze.filter fun d => d.level = .error) =
      script.errors.map (ParseError.toDiagnostic script.id) := by
  have herrors : ∀ d ∈ script.errors.map (ParseError.toDiagnostic script.id),
      d.level = .error := by
    intro d hd
    obtain ⟨e, -, rfl⟩ := List.mem_map.mp hd
    rfl
  have hfindings : ∀ d ∈ script.findings.map (Finding.toDiagnostic script.id),
      d.level ≠ .error := by
    intro d hd
    obtain ⟨f, -, rfl⟩ := List.mem_map.mp hd
    rw [Finding.level_toDiagnostic]
    cases f <;> simp [Finding.level]
  rw [Script.analyze, List.filter_append, List.filter_eq_self.mpr (by simpa using herrors),
    List.filter_eq_nil_iff.mpr (by simpa using hfindings), List.append_nil]

/-- A repetition is noted once for each name that is declared at least twice. -/
lemma count_repeatedDeclaration (script : Script) (name : String) :
    script.findings.count (.repeatedDeclaration name) =
      if 2 ≤ script.declared.count name then 1 else 0 := by
  rw [Script.findings, DialogueScript.count_repeatedDeclaration]
  refine if_congr ?_ rfl rfl
  rw [List.count_nil, Nat.zero_add]
  exact and_iff_right (Nat.zero_le 1)

end Script

/-- **A check is exact.** The diagnostics of a script are first an error with its line for
everything that was wrong with the source, and no other error; then what there is to note about
the visits of the walk through the script, in order, as warnings and remarks. The declared
functions are those of the declarations on the walk, which is also what collecting them block by
block gives; the statements with nothing around them are the statements of the script; and a
repetition is noted once for each function that is declared at least twice. -/
theorem check_exact (script : Script) :
    script.analyze =
        script.errors.map (fun e => ⟨.error, script.id, some e.line, e.message, none⟩) ++
          (((walks script.statements).inits.zip (walks script.statements)).flatMap
            fun (earlier, v) => v.findings script.declared earlier).map
              (Finding.toDiagnostic script.id) ∧
      (script.analyze.filter fun d => d.level = .error) =
        script.errors.map (fun e => ⟨.error, script.id, some e.line, e.message, none⟩) ∧
      (∀ f : Finding, (f.toDiagnostic script.id).level = f.level) ∧
      script.declared = (walks script.statements).filterMap Visit.declared? ∧
      (∀ statements, declaredNames statements = statements.flatMap fun s =>
        (s.function?.map FunctionDecl.name).toList ++ s.childBlocks.flatMap declaredNames) ∧
      (walks script.statements).filterMap Visit.outermost? = script.statements ∧
      ∀ name, script.findings.count (.repeatedDeclaration name) =
        if 2 ≤ script.declared.count name then 1 else 0 := by
  refine ⟨?_, script.filter_error_analyze, Finding.level_toDiagnostic script.id,
    declaredNames_eq_filterMap script.statements, declaredNames_eq,
    filterMap_outermost?_walks script.statements, script.count_repeatedDeclaration⟩
  rw [← script.findings_eq]
  rfl

end DialogueScript
