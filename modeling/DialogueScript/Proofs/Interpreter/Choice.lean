import DialogueScript.Proofs.Interpreter.Descent

set_option autoImplicit false

/-!
# Choices and branches

A choice between cases does what a chain of branches does, each of which compares the selector with
the value of one case: the two end in the same way and leave the same interpreter, or neither ends.
The selector is a literal that denotes a value, so that evaluating it again for every branch changes
nothing; the values of the cases may be calls, with all that calls can do.

The two forms use different amounts of fuel. They are compared by how they end with any amount, and
this comparison is kept by putting computations together, since more fuel does not change how a
computation ends.

## Main definitions

* `DialogueScript.Eval.Alike` — two computations end in the same ways.
* `DialogueScript.LiteralKind.value?` — the value that a literal denotes.
* `DialogueScript.Stmt.branchChain` — some cases as a chain of branches.

## Main results

* `DialogueScript.Eval.exists_bind_iff` — how one computation after another ends.
* `DialogueScript.Eval.Alike.bind` — computations that are alike, put together.
* `DialogueScript.alike_branchChain` — the chain of branches and the choice of a case.
* `DialogueScript.select_alike_branchChain` — a choice and the chain of its cases.
-/

namespace DialogueScript

open Eval

variable {σ : Type} {α β : Type}

/-! ## Computations that end in the same ways -/

namespace Eval

variable {p q : Nat → Eval σ α} {f g : α → Nat → Eval σ β} {i j k : Interpreter σ}

/-- With enough fuel, the two computations end in the same way and leave the same interpreter, each
begun in an interpreter of its own; or neither of them ends. -/
def Alike (p : Nat → Eval σ α) (i : Interpreter σ) (q : Nat → Eval σ α) (j : Interpreter σ) :
    Prop :=
  ∀ (outcome : Outcome α) (k : Interpreter σ), outcome.Ends →
    ((∃ fuel, p fuel i = (outcome, k)) ↔ ∃ fuel, q fuel j = (outcome, k))

/-- Computations that are the same with every amount of fuel are alike. -/
lemma Alike.of_eq (h : ∀ fuel, p fuel i = q fuel j) : Alike p i q j := by
  intro outcome k _
  simp only [h]

/-- To be alike is mutual. -/
lemma Alike.symm (h : Alike p i q j) : Alike q j p i :=
  fun outcome k hends => (h outcome k hends).symm

/-- To be alike carries over. -/
lemma Alike.trans {r : Nat → Eval σ α} (h : Alike p i q j) (h' : Alike q j r k) :
    Alike p i r k :=
  fun outcome l hends => (h outcome l hends).trans (h' outcome l hends)

/-- Of two computations that end in the same ways, both end or none. -/
lemma Alike.terminates_iff (h : Alike p i q j) : Terminates p i ↔ Terminates q j := by
  constructor
  · rintro ⟨fuel, hends⟩
    obtain ⟨fuel', hq⟩ := (h _ _ hends).mp ⟨fuel, rfl⟩
    exact terminates_of_eq hq hends
  · rintro ⟨fuel, hends⟩
    obtain ⟨fuel', hp⟩ := (h _ _ hends).mpr ⟨fuel, rfl⟩
    exact terminates_of_eq hp hends

/-- A unit of fuel that is spent before anything is done does not matter. -/
lemma Steady.alike_succ (hp : Steady p) : Alike p i (fun fuel => p (fuel + 1)) i := by
  intro outcome k hends
  constructor
  · rintro ⟨fuel, h⟩
    exact ⟨fuel, hp.eq_of_le (Nat.le_succ fuel) h hends⟩
  · rintro ⟨fuel, h⟩
    exact ⟨fuel + 1, h⟩

/-- **How one computation after another ends**: as the second does, where the first one leads; or
with the exit that the first one asks for. -/
lemma exists_bind_iff (hp : Steady p) (hf : ∀ a, Steady (f a)) {outcome : Outcome β}
    (hends : outcome.Ends) :
    (∃ fuel, (p fuel >>= fun a => f a fuel) i = (outcome, k)) ↔
      (∃ a j, (∃ fuel, p fuel i = (.done a, j)) ∧ ∃ fuel, f a fuel j = (outcome, k)) ∨
        outcome = .exitRequested ∧ ∃ fuel, p fuel i = (.exitRequested, k) := by
  constructor
  · rintro ⟨fuel, h⟩
    rcases hpi : p fuel i with ⟨a | _ | _, j⟩
    · rw [bind_of_done hpi] at h
      exact .inl ⟨a, j, ⟨fuel, hpi⟩, fuel, h⟩
    · rw [bind_of_exitRequested hpi] at h
      cases h
      exact .inr ⟨rfl, fuel, hpi⟩
    · rw [bind_of_outOfFuel hpi] at h
      cases h
      exact hends.elim
  · rintro (⟨a, j, ⟨fuel, hfirst⟩, more, hsecond⟩ | ⟨rfl, fuel, hfirst⟩)
    · -- Both parts can do with the greater amount.
      have hfirst' := hp.eq_of_le (Nat.le_max_left fuel more) hfirst trivial
      have hsecond' := (hf a).eq_of_le (Nat.le_max_right fuel more) hsecond hends
      exact ⟨max fuel more, (bind_of_done hfirst').trans hsecond'⟩
    · exact ⟨fuel, bind_of_exitRequested hfirst⟩

/-- **Computations that are alike, put together**, are alike. -/
lemma Alike.bind (h : Alike p i q j) (hp : Steady p) (hq : Steady q) (hf : ∀ a, Steady (f a))
    (hg : ∀ a, Steady (g a)) (hlater : ∀ a k, Alike (f a) k (g a) k) :
    Alike (fun fuel => p fuel >>= fun a => f a fuel) i
      (fun fuel => q fuel >>= fun a => g a fuel) j := by
  intro outcome k hends
  rw [exists_bind_iff hp hf hends, exists_bind_iff hq hg hends]
  refine or_congr ?_ (and_congr_right fun _ => h .exitRequested k trivial)
  exact exists_congr fun a => exists_congr fun l =>
    and_congr (h (.done a) l trivial) (hlater a l outcome k hends)

/-- What comes behind a computation that has a result is all that matters. -/
lemma alike_of_done {a : α} {fuel : Nat} (hp : Steady p) (hf : ∀ a, Steady (f a))
    (h : p fuel i = (.done a, j)) :
    Alike (fun fuel => p fuel >>= fun a => f a fuel) i (f a) j := by
  intro outcome k hends
  rw [exists_bind_iff hp hf hends]
  constructor
  · rintro (⟨b, l, ⟨more, hb⟩, hlater⟩ | ⟨-, more, hexit⟩)
    · obtain ⟨hvalue, rfl⟩ := hp.unique h trivial hb trivial
      cases hvalue
      exact hlater
    · obtain ⟨hvalue, -⟩ := hp.unique h trivial hexit trivial
      cases hvalue
  · exact fun hlater => .inl ⟨a, j, ⟨fuel, h⟩, hlater⟩

end Eval

/-! ## Literals and chains -/

/-- The value that a literal denotes. Only a number may denote none. -/
def LiteralKind.value? (kind : LiteralKind) (text : String) : Option Value :=
  match kind with
  | .string => some (.str text)
  | .boolean => some (.bool (Text.sameFolded text "true"))
  | .number => numberValue? text

/-- A literal that denotes a value has that value, and nothing else happens. -/
lemma literalValue_of_value? {kind : LiteralKind} {text : String} {value : Value}
    (h : kind.value? text = some value) :
    (literalValue kind text : Eval σ Value) = pure value := by
  cases kind with
  | string =>
    cases h
    rfl
  | boolean =>
    cases h
    rfl
  | number =>
    have hnumber : numberValue? text = some value := h
    simp only [literalValue, hnumber]

/-- Some cases as a chain of branches: each compares the selector with the value of a case, and the
cases behind it stand in its `else`. -/
def Stmt.branchChain (selector : Expr) : List CaseBlock → List Stmt
  | [] => []
  | block :: later =>
    [.branch (.equals selector block.value) block.body (branchChain selector later)]

/-- A single statement is executed as it is. -/
lemma runAll_singleton (exec : Stmt → Eval σ Flow) (s : Stmt) : runAll exec [s] = exec s := by
  funext i
  rcases h : exec s i with ⟨(_ | value) | _ | _, j⟩
  · exact bind_of_done h
  · exact bind_of_done h
  · exact bind_of_exitRequested h
  · exact bind_of_outOfFuel h

/-! ## The choice of a case -/

section

variable [Host σ] {scope : ScopeId} {i j : Interpreter σ} {selected : Value}

/-- The search for a case and the run of the body that is found. -/
def chooseCase (scope : ScopeId) (selected : Value) (cases : List CaseBlock) (fuel : Nat) :
    Eval σ Flow :=
  selectCase (evaluate fuel scope) selected cases >>= fun body => runStatements fuel scope body

/-- More fuel does not change which case is chosen, nor how it ends. -/
lemma steady_chooseCase (scope : ScopeId) (selected : Value) (cases : List CaseBlock) :
    Steady (chooseCase scope selected cases : Nat → Eval σ Flow) :=
  (steady_selectCase scope selected cases).bind fun body => steady_runStatements scope body

/-- The search evaluates the value of the first case and goes on behind it if the values differ. -/
lemma chooseCase_cons (block : CaseBlock) (later : List CaseBlock) (fuel : Nat) :
    (chooseCase scope selected (block :: later) fuel : Eval σ Flow) =
      evaluate fuel scope block.value >>= fun value =>
        if selected.scriptEq value = true then runStatements fuel scope block.body
        else chooseCase scope selected later fuel := by
  have hsearch : (chooseCase scope selected (block :: later) fuel : Eval σ Flow) =
      evaluate fuel scope block.value >>= fun value =>
        (if selected.scriptEq value = true then pure block.body
          else selectCase (evaluate fuel scope) selected later) >>= fun body =>
            runStatements fuel scope body := bind_bind _ _ _
  rw [hsearch]
  congr 1
  funext value
  split
  · rfl
  · rfl

variable {kind : LiteralKind} {text : String}

/-- What comes behind a literal that denotes a value. -/
lemma alike_literal {f : Value → Nat → Eval σ β} (h : kind.value? text = some selected)
    (hf : ∀ a, Steady (f a)) :
    Alike (fun fuel => evaluate fuel scope (.literal kind text) >>= fun a => f a fuel) i
      (f selected) i := by
  have heval : evaluate 1 scope (.literal kind text) i = (.done selected, i) := by
    rw [evaluate, literalValue_of_value? h]
    rfl
  exact alike_of_done (steady_evaluate scope _) hf heval

/-- A branch that compares the selector with the value of a case. -/
lemma alike_branch (h : kind.value? text = some selected) (e : Expr)
    (thenBody elseBody : List Stmt) :
    Alike (fun fuel =>
        execute fuel scope (.branch (.equals (.literal kind text) e) thenBody elseBody)) i
      (fun fuel => evaluate fuel scope e >>= fun value =>
        runStatements fuel scope (if selected.scriptEq value then thenBody else elseBody)) i := by
  let rest (a : Value) (fuel : Nat) : Eval σ Flow :=
    evaluate fuel scope e >>= fun value =>
      runStatements fuel scope (if a.scriptEq value then thenBody else elseBody)
  have hrest : ∀ a, Steady (rest a) := fun a =>
    (steady_evaluate scope e).bind fun _ => steady_runStatements scope _
  have hbranch : ∀ fuel, (execute (fuel + 1) scope
      (.branch (.equals (.literal kind text) e) thenBody elseBody) : Eval σ Flow) =
        evaluate fuel scope (.literal kind text) >>= fun a => rest a fuel := by
    intro fuel
    rw [execute, conditionValue, comparisonValue, bind_bind]
    congr 1
    funext a
    exact bind_bind _ _ _
  refine (steady_execute scope _).alike_succ.trans ?_
  simp only [hbranch]
  exact alike_literal h hrest

/-- **The chain of branches and the choice of a case** are alike.

**Proof sketch.** By induction on the cases. The first branch evaluates the selector, which changes
nothing, and then the value of the first case, as the search does. If the two are equal, both run
the body of the case; otherwise both go on with the cases behind it. -/
lemma alike_branchChain (h : kind.value? text = some selected) (cases : List CaseBlock)
    (i : Interpreter σ) :
    Alike (fun fuel => runStatements fuel scope (Stmt.branchChain (.literal kind text) cases)) i
      (chooseCase scope selected cases) i := by
  induction cases generalizing i with
  | nil => exact .of_eq fun _ => rfl
  | cons block later ih =>
    simp only [Stmt.branchChain, runStatements, runAll_singleton]
    refine (alike_branch h block.value block.body _).trans ?_
    have hcons : (chooseCase scope selected (block :: later) : Nat → Eval σ Flow) = fun fuel =>
        evaluate fuel scope block.value >>= fun value =>
          if selected.scriptEq value = true then runStatements fuel scope block.body
          else chooseCase scope selected later fuel := funext (chooseCase_cons block later)
    rw [hcons]
    refine Alike.bind (.of_eq fun _ => rfl) (steady_evaluate scope _) (steady_evaluate scope _)
      (fun _ => steady_runStatements scope _) (fun value => ?_) fun value k => ?_
    · split
      · exact steady_runStatements scope _
      · exact steady_chooseCase scope selected later
    · by_cases heq : selected.scriptEq value = true
      · simp only [heq, if_true]
        exact .of_eq fun _ => rfl
      · simp only [heq]
        exact ih k

/-- A choice looks for its case with the value of the selector. -/
lemma alike_select (h : kind.value? text = some selected) (cases : List CaseBlock) :
    Alike (fun fuel => execute fuel scope (.select (.literal kind text) cases)) i
      (chooseCase scope selected cases) i := by
  refine (steady_execute scope _).alike_succ.trans ?_
  simp only [execute]
  exact alike_literal h fun selected => steady_chooseCase scope selected cases

omit [Host σ] in
/-- **The first case whose value is equal** is chosen, when the values of those before it differ.
The cases behind it are not looked at. -/
lemma selectCase_of_first {eval : Expr → Eval σ Value} {before later : List CaseBlock}
    {block : CaseBlock} {values : List Value} {value : Value} {mid : Interpreter σ}
    (hbefore : valuesOf eval (before.map CaseBlock.value) i = (.done values, mid))
    (hdiffer : ∀ v ∈ values, selected.scriptEq v = false)
    (hvalue : eval block.value mid = (.done value, j)) (heq : selected.scriptEq value = true) :
    selectCase eval selected (before ++ block :: later) i = (.done block.body, j) := by
  induction before generalizing i values with
  | nil =>
    obtain ⟨-, rfl⟩ : [] = values ∧ i = mid := by simpa [valuesOf, pure] using hbefore
    rw [List.nil_append, selectCase, bind_of_done hvalue, if_pos heq]
    rfl
  | cons first before ih =>
    obtain ⟨a, l, hfirst, hrest⟩ := bind_eq_done_iff.mp hbefore
    obtain ⟨others, l', hothers, hresult⟩ := bind_eq_done_iff.mp hrest
    obtain ⟨rfl, rfl⟩ : a :: others = values ∧ l' = mid := by simpa [pure] using hresult
    have hne : ¬selected.scriptEq a = true := by simp [hdiffer a List.mem_cons_self]
    rw [List.cons_append, selectCase, bind_of_done hfirst, if_neg hne]
    exact ih hothers fun v hv => hdiffer v (List.mem_cons_of_mem a hv)

end

/-- **A choice and the chain of its cases.** Take a selector that is a literal and denotes a value.
In every scope and from every interpreter, executing the choice and running the chain of branches
made of its cases are alike: both end normally, return the same value or ask to exit, and leave the
same scopes, host, reports and number of calls; or neither ends.

Moreover, where the values of some cases differ from the selector and that of the next case is equal
to it, the choice does what the body of this case does, whatever cases stand behind it.

**Proof sketch.** Both look for the case and run its body: the choice by definition, and the chain
by induction on the cases. -/
theorem select_alike_branchChain [Host σ] (kind : LiteralKind) (text : String) (selected : Value)
    (hselected : kind.value? text = some selected) (cases : List CaseBlock) (scope : ScopeId)
    (i : Interpreter σ) :
    let choice := fun fuel => execute fuel scope (.select (.literal kind text) cases)
    let chain := fun fuel =>
      runStatements fuel scope (Stmt.branchChain (.literal kind text) cases)
    Alike choice i chain i ∧ (Terminates choice i ↔ Terminates chain i) ∧
      ∀ before block later, cases = before ++ block :: later →
        ∀ fuel values value mid j,
          valuesOf (evaluate fuel scope) (before.map CaseBlock.value) i = (.done values, mid) →
          (∀ v ∈ values, selected.scriptEq v = false) →
          evaluate fuel scope block.value mid = (.done value, j) →
          selected.scriptEq value = true →
            Alike choice i (fun fuel => runStatements fuel scope block.body) j := by
  intro choice chain
  have halike : Alike choice i chain i :=
    (alike_select hselected cases).trans (alike_branchChain hselected cases i).symm
  refine ⟨halike, halike.terminates_iff, ?_⟩
  rintro before block later rfl fuel values value mid j hbefore hdiffer hvalue heq
  refine (alike_select hselected _).trans ?_
  exact alike_of_done (steady_selectCase scope selected _)
    (fun body => steady_runStatements scope body)
    (selectCase_of_first hbefore hdiffer hvalue heq)

/-- Three cases that each ask for an answer. -/
def askingCases : List CaseBlock :=
  [⟨.call "puppetevent" [], [.exitCode]⟩,
    ⟨.call "puppetevent" [], [.ret (some (.string "second"))]⟩,
    ⟨.call "puppetevent" [], [.exitCode]⟩]

/-- The second answer is the number that is selected: the chain returns from there as the choice
does, and the third answer is not asked for. -/
theorem select_alike_branchChain_asking :
    let i := Interpreter.new (BufferHost.withAnswers ["7", " +01 ", "1"])
    LiteralKind.number.value? "1" = some (.integer 1) ∧
      Alike (fun fuel => execute fuel 0 (.select (.number "1") askingCases)) i
        (fun fuel => runStatements fuel 0 (Stmt.branchChain (.number "1") askingCases)) i ∧
        ∃ fuel j, runStatements fuel 0 (Stmt.branchChain (.number "1") askingCases) i =
          (.done (.returned (.str "second")), j) ∧ j.host.answers = ["1"] := by
  intro i
  let mid : Interpreter BufferHost := { i with host := ⟨[], [" +01 ", "1"]⟩ }
  let j : Interpreter BufferHost := { i with host := ⟨[], ["1"]⟩ }
  have hselected : LiteralKind.number.value? "1" = some (.integer 1) := rfl
  obtain ⟨halike, -, hfirst⟩ := select_alike_branchChain .number "1" _ hselected askingCases 0 i
  have hbefore : valuesOf (evaluate 2 0) [.call "puppetevent" []] i = (.done [.integer 7], mid) :=
    rfl
  have hdiffer : ∀ v ∈ [Value.integer 7], (Value.integer 1).scriptEq v = false := by
    simp only [List.forall_mem_singleton]
    rfl
  have hvalue : evaluate 2 0 (.call "puppetevent" []) mid = (.done (.integer 1), j) := rfl
  have hbody := hfirst [_] _ [_] rfl 2 _ _ mid j hbefore hdiffer hvalue rfl
  have hreturned : ∃ fuel, runStatements fuel 0 [.ret (some (.string "second"))] j =
      (.done (.returned (.str "second")), j) := ⟨2, rfl⟩
  have hends : (Outcome.done (Flow.returned (.str "second"))).Ends := trivial
  obtain ⟨fuel, hchain⟩ := (halike _ _ hends).mp ((hbody _ _ hends).mpr hreturned)
  exact ⟨hselected, halike, fuel, j, hchain, rfl⟩

end DialogueScript
