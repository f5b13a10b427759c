import DialogueScript.Host
import DialogueScript.RuntimeError
import DialogueScript.Scope.Basic

set_option autoImplicit false

/-!
# Interpreters

An interpreter holds the scopes, the host and the reports of a run. A *computation* turns an
interpreter into another one and ends in one of three ways: with a result, because the script
asked to exit, or because its fuel was used up. The last is not an event of the language; it marks
computations that have not been followed to their end.

## Main definitions

* `DialogueScript.Interpreter` — the state of a run.
* `DialogueScript.Outcome` — how a computation ends.
* `DialogueScript.Eval` — computations, a monad.
* `DialogueScript.Eval.inCall` — running something in a frame of its own.
-/

namespace DialogueScript

/-- The state of a run over a host with states in `σ`. -/
structure Interpreter (σ : Type) where
  /-- The variables and functions. -/
  scopes : Scopes
  /-- The host. -/
  host : σ
  /-- The reports, oldest first. -/
  errors : List RuntimeError
  /-- How many calls may lie inside each other. -/
  limit : Nat
  /-- How many calls lie inside each other now. -/
  callDepth : Nat

namespace Interpreter

variable {σ : Type}

/-- The limit on calls inside each other where none is given. -/
def defaultLimit : Nat :=
  256

/-- The greatest limit on calls inside each other. -/
def greatestLimit : Nat :=
  1024

/-- A fresh interpreter over a host. -/
def new (host : σ) : Interpreter σ :=
  ⟨Scopes.empty, host, [], defaultLimit, 0⟩

/-- The interpreter with another limit on calls inside each other; too great a limit is cut. -/
def withLimit (i : Interpreter σ) (limit : Nat) : Interpreter σ :=
  { i with limit := min limit greatestLimit }

/-- The interpreter with some variables of the whole program bound. -/
def withGlobals (i : Interpreter σ) (bindings : List (String × Value)) : Interpreter σ :=
  { i with scopes := i.scopes.setGlobals bindings }

/-- The interpreter without its reports. -/
def clearErrors (i : Interpreter σ) : Interpreter σ :=
  { i with errors := [] }

/-- Bind parameters to arguments in order. Arguments without a parameter are dropped, and
parameters without an argument are `nil`. -/
def bindParameters (scopes : Scopes) (scope : ScopeId) : List String → List Value → Scopes
  | [], _ => scopes
  | param :: params, [] => bindParameters (scopes.define scope param .nil) scope params []
  | param :: params, arg :: args => bindParameters (scopes.define scope param arg) scope params args

/-- Begin a call: push a frame over the root and bind the parameters in it. -/
def enter (i : Interpreter σ) (params : List String) (args : List Value) : Interpreter σ :=
  { i with
    scopes := bindParameters (i.scopes.push Scopes.rootId) i.scopes.depth params args
    callDepth := i.callDepth + 1 }

/-- End a call: pop its frame. -/
def leave (i : Interpreter σ) : Interpreter σ :=
  { i with scopes := i.scopes.pop, callDepth := i.callDepth - 1 }

end Interpreter

/-! ## Computations -/

/-- How a computation ends. -/
inductive Outcome (α : Type)
  /-- It has a result. -/
  | done (result : α)
  /-- The script asked to end the call that the outside world made. -/
  | exitRequested
  /-- The fuel was used up before the end. -/
  | outOfFuel

/-- A computation over an interpreter. -/
def Eval (σ α : Type) : Type :=
  Interpreter σ → Outcome α × Interpreter σ

namespace Eval

variable {σ α : Type}

/-- A computation goes on with the result of another one, if that has a result. -/
instance : Monad (Eval σ) where
  pure a := fun i => (.done a, i)
  bind p f := fun i =>
    match p i with
    | (.done a, j) => f a j
    | (.exitRequested, j) => (.exitRequested, j)
    | (.outOfFuel, j) => (.outOfFuel, j)

/-- Ask something about the interpreter. -/
def look (f : Interpreter σ → α) : Eval σ α :=
  fun i => (.done (f i), i)

/-- Change the interpreter. -/
def modify (f : Interpreter σ → Interpreter σ) : Eval σ Unit :=
  fun i => (.done (), f i)

/-- Change the scopes. -/
def modifyScopes (f : Scopes → Scopes) : Eval σ Unit :=
  modify fun i => { i with scopes := f i.scopes }

/-- Report a fault. -/
def report (error : RuntimeError) : Eval σ Unit :=
  modify fun i => { i with errors := i.errors ++ [error] }

/-- End the call that the outside world made. -/
def exit : Eval σ α :=
  fun i => (.exitRequested, i)

/-- Give up for lack of fuel. -/
def giveUp : Eval σ α :=
  fun i => (.outOfFuel, i)

/-- Run something in a frame of its own, which is popped again however it ends. -/
def inCall (params : List String) (args : List Value) (body : ScopeId → Eval σ α) : Eval σ α :=
  fun i =>
    match body i.scopes.depth (i.enter params args) with
    | (outcome, j) => (outcome, j.leave)

/-- Show a command. -/
def execute [Host σ] (command : Command) : Eval σ Unit :=
  modify fun i => { i with host := Host.execute command i.host }

/-- Ask the host for an answer. -/
def readAnswer [Host σ] : Eval σ (Option String) :=
  fun i =>
    match Host.readAnswer i.host with
    | (answer, host) => (.done answer, { i with host := host })

end Eval

end DialogueScript
