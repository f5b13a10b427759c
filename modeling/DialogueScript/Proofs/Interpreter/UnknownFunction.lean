import DialogueScript.Proofs.Analysis.Coverage
import DialogueScript.Proofs.Interpreter.Evolution

set_option autoImplicit false

/-!
# Unknown functions

A call of a function that is neither registered nor built in is reported. A check of the script
tells in advance which names can be reported: after loading a script, only those that the outside
world asks for itself and those that the script calls, and each of the latter is either declared
somewhere in the script or has a warning. If the check has nothing to say and the script runs to
its end, then all its functions are registered, and no later call meets an unknown one.

## Main results

* `DialogueScript.Evolves.unknownFunction_of_mem` — what can be reported during a run.
* `DialogueScript.Evolves.no_unknownFunction` — nothing is, if all that is called is known.
* `DialogueScript.registered_of_runStatements` — a script that ran to its end has registered its
  functions.
* `DialogueScript.unknownFunction_covered` — every reported name is covered by the check.
* `DialogueScript.no_unknownFunction_of_analyze_eq_nil` — none is reported after a clean check.
-/

namespace DialogueScript

open Eval

variable {σ : Type} [Host σ] {Called : String → Prop} {scope : ScopeId} {name : String}

/-! ## Reports of a run -/

/-- Only an unknown name that the run may call is newly reported as unknown. -/
lemma Evolves.unknownFunction_of_mem {i j : Interpreter σ} (h : Evolves Called scope i j) :
    .unknownFunction name ∈ j.errors →
      .unknownFunction name ∈ i.errors ∨ Called name ∧ Builtin.isName name = false := by
  induction h with
  | refl => exact .inl
  | trans _ _ ihij ihjk =>
    intro hmem
    rcases ihjk hmem with hmem | hcalled
    · exact ihij hmem
    · exact .inr hcalled
  | define _ _ _ => exact .inl
  | declare _ _ _ => exact .inl
  | register _ => exact .inl
  | report herror =>
    intro hmem
    rcases List.mem_append.mp hmem with hmem | hmem
    · exact .inl hmem
    · obtain ⟨hcalled, -, hbuiltin⟩ := herror name (List.mem_singleton.mp hmem).symm
      exact .inr ⟨hcalled, by simp [Builtin.isName, hbuiltin]⟩
  | command _ => exact .inl
  | answer => exact .inl
  | call _ _ ih => exact ih

omit [Host σ] in
/-- Beginning a call takes no function away. -/
lemma Interpreter.registered_enter {i : Interpreter σ} (h : i.scopes.Registered name)
    (params : List String) (args : List Value) : (i.enter params args).scopes.Registered name :=
  i.enter_induction (P := fun scopes => scopes.Registered name) params args h
    fun _ id bound value h => h.define id bound value

/-- A function of the root stays. -/
lemma Evolves.registered {i j : Interpreter σ} (h : Evolves Called scope i j) :
    i.scopes.Registered name → j.scopes.Registered name := by
  induction h with
  | refl => exact fun hi => hi
  | trans _ _ ihij ihjk => exact fun hi => ihjk (ihij hi)
  | define _ bound value => exact fun hi => hi.define _ bound value
  | declare _ bound value => exact fun hi => hi.declare _ bound value
  | register _ => exact fun hi => hi.defineFunction Scopes.rootId _
  | report _ => exact fun hi => hi
  | command _ => exact fun hi => hi
  | answer => exact fun hi => hi
  | call _ _ ih => exact fun hi => ih (Interpreter.registered_enter hi _ _)

/-- **No unknown function is reported** as long as everything that is called is registered or
built in. -/
lemma Evolves.no_unknownFunction {i j : Interpreter σ} (h : Evolves Called scope i j) :
    (∀ name, Called name → Builtin.isName name = true ∨ i.scopes.Registered name) →
      ∃ added, j.errors = i.errors ++ added ∧ ∀ name, .unknownFunction name ∉ added := by
  have hsame : ∀ i : Interpreter σ,
      ∃ added, i.errors = i.errors ++ added ∧ ∀ name, .unknownFunction name ∉ added :=
    fun _ => ⟨[], by simp⟩
  induction h with
  | refl => exact fun _ => hsame _
  | trans hij _ ihij ihjk =>
    intro hknown
    obtain ⟨first, hfirst, hnotFirst⟩ := ihij hknown
    obtain ⟨second, hsecond, hnotSecond⟩ :=
      ihjk fun name hname => (hknown name hname).imp_right hij.registered
    refine ⟨first ++ second, by rw [hsecond, hfirst, List.append_assoc], fun name hmem => ?_⟩
    rcases List.mem_append.mp hmem with hmem | hmem
    · exact hnotFirst name hmem
    · exact hnotSecond name hmem
  | define _ _ _ => exact fun _ => hsame _
  | declare _ _ _ => exact fun _ => hsame _
  | register _ => exact fun _ => hsame _
  | @report scope i error herror =>
    intro hknown
    refine ⟨[error], rfl, fun name hmem => ?_⟩
    obtain ⟨hcalled, hfunction, hbuiltin⟩ := herror name (List.mem_singleton.mp hmem).symm
    rcases hknown name hcalled with hname | hname
    · simp [Builtin.isName, hbuiltin] at hname
    · exact hname.function?_ne_none scope hfunction
  | command _ => exact fun _ => hsame _
  | answer => exact fun _ => hsame _
  | call _ _ ih =>
    intro hknown
    exact ih fun name hname =>
      (hknown name hname).imp_right fun hi => Interpreter.registered_enter hi _ _

/-! ## Running to the end -/

section

variable {exec : Stmt → Eval σ Flow} {i j : Interpreter σ} {flow : Flow}

omit [Host σ] in
/-- Statements that never return go on to the end of their block. -/
lemma runAll_normal {block : List Stmt}
    (hexec : ∀ s ∈ block, ∀ i flow j, exec s i = (.done flow, j) → flow = .normal)
    (h : runAll exec block i = (.done flow, j)) : flow = .normal := by
  induction block generalizing i with
  | nil =>
    obtain ⟨rfl, -⟩ : Flow.normal = flow ∧ i = j := by simpa [runAll, pure] using h
    rfl
  | cons s block ih =>
    obtain ⟨first, k, hfirst, hrest⟩ := bind_eq_done_iff.mp h
    obtain rfl := hexec s (by simp) i first k hfirst
    exact ih (fun t ht => hexec t (List.mem_cons_of_mem _ ht)) hrest

/-- A statement without a `return` outside of functions does not return. -/
lemma execute_normal {fuel : Nat} {s : Stmt} (hs : ¬ s.Returns)
    (h : execute fuel scope s i = (.done flow, j)) : flow = .normal := by
  induction fuel generalizing s i flow j with
  | zero => cases h
  | succ fuel ih =>
    have hpure : ∀ {k : Interpreter σ}, (pure Flow.normal : Eval σ Flow) k = (.done flow, j) →
        flow = .normal := by
      intro k hk
      obtain ⟨rfl, -⟩ : Flow.normal = flow ∧ k = j := by simpa [pure] using hk
      rfl
    have hblock : s.function? = none → ∀ block ∈ s.childBlocks, ∀ {k : Interpreter σ} {flow j},
        runAll (fun inner => execute fuel scope inner) block k = (.done flow, j) →
          flow = .normal :=
      fun hfunction block hblock _ _ _ hrun => runAll_normal
        (fun t ht _ _ _ ht' => ih (fun hreturns => hs (.inside hfunction hblock ht hreturns)) ht')
        hrun
    cases s with
    | assign name value =>
      obtain ⟨_, _, -, h⟩ := bind_eq_done_iff.mp h
      obtain ⟨_, _, -, h⟩ := bind_eq_done_iff.mp h
      exact hpure h
    | call name args =>
      obtain ⟨_, _, -, h⟩ := bind_eq_done_iff.mp h
      obtain ⟨_, _, -, h⟩ := bind_eq_done_iff.mp h
      exact hpure h
    | declare name params body =>
      obtain ⟨_, _, -, h⟩ := bind_eq_done_iff.mp h
      exact hpure h
    | globals names =>
      obtain ⟨_, _, -, h⟩ := bind_eq_done_iff.mp h
      exact hpure h
    | locals names =>
      obtain ⟨_, _, -, h⟩ := bind_eq_done_iff.mp h
      exact hpure h
    | branch condition thenBody elseBody =>
      obtain ⟨value, _, -, h⟩ := bind_eq_done_iff.mp h
      refine hblock rfl (if value.isTruthy then thenBody else elseBody) ?_ h
      split <;> simp [Stmt.childBlocks]
    | select selector cases =>
      obtain ⟨selected, _, -, h⟩ := bind_eq_done_iff.mp h
      obtain ⟨body, _, hselect, h⟩ := bind_eq_done_iff.mp h
      rcases selectCase_done hselect with rfl | ⟨block, hmem, rfl⟩
      · exact hpure h
      · exact hblock rfl block.body (List.mem_map_of_mem hmem) h
    | loop condition body =>
      obtain ⟨value, _, -, h⟩ := bind_eq_done_iff.mp h
      split at h
      · obtain ⟨first, _, hfirst, h⟩ := bind_eq_done_iff.mp h
        obtain rfl := hblock rfl body (by simp [Stmt.childBlocks]) hfirst
        exact ih hs h
      · exact hpure h
    | ret value => exact absurd .here hs
    | exitCode => cases h

/-- **What ran to its end is registered.** If statements that never return have all been executed,
then the functions that they declare are in the root.

**Proof sketch.** By induction on the statements. None of them returns (`execute_normal`), so the
next one is executed; a declaration registers its function, which stays (`Evolves.registered`). -/
lemma registered_of_runStatements {fuel : Nat} {statements : List Stmt}
    (hcalls : ∀ s ∈ statements, s.CallsOnly Called) (hreturns : ∀ s ∈ statements, ¬ s.Returns)
    (hi : i.scopes.EveryFunction (FunctionDecl.CallsOnly Called))
    (h : runStatements fuel scope statements i = (.done flow, j)) {params : List String}
    {body : List Stmt} (hmem : .declare name params body ∈ statements) :
    j.scopes.Registered name := by
  induction statements generalizing i with
  | nil => simp at hmem
  | cons s later ih =>
    have hcallsLater : ∀ t ∈ later, t.CallsOnly Called :=
      fun t ht => hcalls t (List.mem_cons_of_mem _ ht)
    have hreturnsLater : ∀ t ∈ later, ¬ t.Returns :=
      fun t ht => hreturns t (List.mem_cons_of_mem _ ht)
    obtain ⟨first, k, hfirst, hrest⟩ := bind_eq_done_iff.mp h
    obtain rfl := execute_normal (hreturns s (by simp)) hfirst
    have hk := ((runsWithin σ Called fuel).execute scope s (hcalls s (by simp))).evolves hi hfirst
    change runStatements fuel scope later k = (.done flow, j) at hrest
    rcases List.mem_cons.mp hmem with rfl | hmem
    · have hregistered : k.scopes.Registered name := by
        cases fuel with
        | zero => cases hfirst
        | succ fuel =>
          obtain ⟨-, rfl⟩ := Prod.mk.inj hfirst
          exact Scopes.registered_defineFunction i.scopes ⟨name, params, body⟩
      have hj := (runs_runStatements fuel hcallsLater).evolves (hk.everyFunction hi) hrest
      exact hj.registered hregistered
    · exact ih hcallsLater hreturnsLater (hk.everyFunction hi) hrest hmem

end

/-! ## Whole sessions -/

/-- **The check covers every unknown function.** Let any script be run on a fresh interpreter and
any calls be made from outside afterwards. A name that is reported as unknown at
any time is not built in; it was asked for from outside, or the script calls it. In the second case
the script declares it somewhere, or the check warns of it.

**Proof sketch.** The whole session is a run whose code is the script (`runs_runScript`,
`Interpreter.Serves.evolves`), so a reported name is one that the script or the outside world calls
(`Evolves.unknownFunction_of_mem`), and the check sees every call of the script
(`Script.exists_warning_of_calls`). -/
theorem unknownFunction_covered (script : Script) (host : σ) (limit : Nat)
    (globals : List (String × Value)) {fuel : Nat} {outcome : Outcome Unit} {i j : Interpreter σ}
    {requests : List (String × List Value)}
    (hrun : runScript fuel script (Interpreter.fresh host limit globals) = (outcome, i))
    (hserves : i.Serves requests j) (hname : .unknownFunction name ∈ j.errors) :
    Builtin.isName name = false ∧
      (name ∈ requests.map Prod.fst ∨
        (∃ s ∈ script.statements, s.Calls name) ∧
          (name ∈ script.declared ∨
            ∃ d ∈ script.analyze, d.level = .warn ∧
              d.message = "调用了未定义的函数: **" ++ name ++ "**")) := by
  let Called : String → Prop := fun name =>
    name ∈ requests.map Prod.fst ∨ ∃ s ∈ script.statements, s.Calls name
  have hfresh := Interpreter.everyFunction_fresh (P := FunctionDecl.CallsOnly Called) host limit
    globals
  have hcalls : ∀ s ∈ script.statements, s.CallsOnly Called :=
    fun s hs name hcalls => .inr ⟨s, hs, hcalls⟩
  have hscript := (runs_runScript fuel hcalls).evolves hfresh hrun
  have hrequests : Evolves Called Scopes.rootId i j :=
    hserves.evolves (fun request hmem => .inl (List.mem_map_of_mem hmem))
      (hscript.everyFunction hfresh)
  rcases (hscript.trans hrequests).unknownFunction_of_mem hname with hmem | ⟨hcalled, hbuiltin⟩
  · cases hmem
  · refine ⟨hbuiltin, hcalled.imp_right fun hscript => ⟨hscript, ?_⟩⟩
    obtain ⟨s, hs, hcalls⟩ := hscript
    by_cases hdeclared : name ∈ script.declared
    · exact .inl hdeclared
    · exact .inr (Script.exists_warning_of_calls hs hcalls hdeclared hbuiltin)

/-- All three ways to be unknown: the script calls `h` before a block declares it and `g` without
declaring it, and the outside world asks for `k`. -/
theorem unknownFunction_covered_session :
    let script : Script := ⟨"session",
      [.declare "f" [] [.call "g" []],
        .branch (.equals (.var "x") (.call "h" [])) [] [.declare "h" [] []],
        .call "f" []], []⟩
    ∃ i j : Interpreter BufferHost,
      runScript 6 script (Interpreter.fresh (.withAnswers []) 3 []) = (.done (), i) ∧
        i.Serves [("k", [])] j ∧
        j.errors = [.unknownFunction "h", .unknownFunction "g", .unknownFunction "k"] ∧
        ∀ name, .unknownFunction name ∈ j.errors →
          Builtin.isName name = false ∧
            (name ∈ [("k", ([] : List Value))].map Prod.fst ∨
              (∃ s ∈ script.statements, s.Calls name) ∧
                (name ∈ script.declared ∨
                  ∃ d ∈ script.analyze, d.level = .warn ∧
                    d.message = "调用了未定义的函数: **" ++ name ++ "**")) := by
  intro script
  let i := (runScript 6 script (Interpreter.fresh (BufferHost.withAnswers []) 3 [])).2
  let j := (callFunction 1 Scopes.rootId "k" [] i).2
  have hrun : runScript 6 script (Interpreter.fresh (.withAnswers []) 3 []) = (.done (), i) := rfl
  have hcall : callFunction 1 Scopes.rootId "k" [] i = (.done .noValue, j) := rfl
  have hserves : i.Serves [("k", [])] j := .cons hcall trivial .nil
  exact ⟨i, j, hrun, hserves, rfl, fun name hname =>
    unknownFunction_covered script _ _ _ hrun hserves hname⟩

/-- **After a clean check no function is unknown.** Let a check of a script have nothing to say,
and let the script run to its end on a fresh interpreter. Then calls from outside of functions that
the script declares or that are built in add no report about an unknown function.

**Proof sketch.** The script calls only such functions, declares them outside of blocks and never
returns (`Script.sound_of_analyze_eq_nil`). So all of them are registered when the script has run
(`registered_of_runStatements`), and then nothing that is called is unknown
(`Evolves.no_unknownFunction`). -/
theorem no_unknownFunction_of_analyze_eq_nil (script : Script) (hclean : script.analyze = [])
    (host : σ) (limit : Nat) (globals : List (String × Value)) {fuel : Nat}
    {i j : Interpreter σ} {requests : List (String × List Value)}
    (hrun : runScript fuel script (Interpreter.fresh host limit globals) = (.done (), i))
    (hserves : i.Serves requests j)
    (hnames : ∀ request ∈ requests,
      request.1 ∈ script.declared ∨ Builtin.isName request.1 = true) :
    ∃ added, j.errors = i.errors ++ added ∧ ∀ name, .unknownFunction name ∉ added := by
  obtain ⟨hcalls, hdeclared, hreturns⟩ := Script.sound_of_analyze_eq_nil hclean
  have hfresh := Interpreter.everyFunction_fresh
    (P := FunctionDecl.CallsOnly fun name =>
      name ∈ script.declared ∨ Builtin.isName name = true) host limit globals
  have hscript := (runs_runScript fuel hcalls).evolves hfresh hrun
  have hregistered : ∀ name ∈ script.declared, i.scopes.Registered name := by
    intro name hname
    obtain ⟨params, body, hmem⟩ := hdeclared name hname
    obtain ⟨flow, k, hstatements, hend⟩ := bind_eq_done_iff.mp hrun
    obtain ⟨-, rfl⟩ := Prod.mk.inj hend
    exact registered_of_runStatements hcalls hreturns hfresh hstatements hmem
  have hrequests := hserves.evolves hnames (hscript.everyFunction hfresh)
  exact hrequests.no_unknownFunction fun name hname => hname.symm.imp_right (hregistered name)

/-- A clean script whose functions ask for an answer that is missing and then exit: the missing
answer is reported, and nothing else. -/
theorem no_unknownFunction_of_analyze_eq_nil_session :
    let script : Script := ⟨"session",
      [.declare "f" [] [.call "puppetevent" [], .assign "x" (.call "g" [])],
        .declare "g" [] [.exitCode]], []⟩
    script.analyze = [] ∧ ∃ i j : Interpreter BufferHost,
      runScript 6 script (Interpreter.fresh (.withAnswers []) 3 []) = (.done (), i) ∧
        i.Serves [("f", []), ("delay", [])] j ∧ j.errors = [.noAnswer] ∧
        ∃ added, j.errors = i.errors ++ added ∧ ∀ name, .unknownFunction name ∉ added := by
  intro script
  have hclean : script.analyze = [] := by decide
  let i := (runScript 6 script (Interpreter.fresh (BufferHost.withAnswers []) 3 [])).2
  let asked := (callFunction 6 Scopes.rootId "f" [] i).2
  let j := (callFunction 1 Scopes.rootId "delay" [] asked).2
  have hrun : runScript 6 script (Interpreter.fresh (.withAnswers []) 3 []) = (.done (), i) := rfl
  have hasked : callFunction 6 Scopes.rootId "f" [] i = (.exitRequested, asked) := rfl
  have hdelay : callFunction 1 Scopes.rootId "delay" [] asked = (.done .noValue, j) := rfl
  have hserves : i.Serves [("f", []), ("delay", [])] j :=
    .cons hasked trivial (.cons hdelay trivial .nil)
  refine ⟨hclean, i, j, hrun, hserves, rfl, ?_⟩
  exact no_unknownFunction_of_analyze_eq_nil script hclean _ _ _ hrun hserves (by decide)

end DialogueScript
