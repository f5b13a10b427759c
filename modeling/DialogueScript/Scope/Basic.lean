import DialogueScript.Script.Stmt
import DialogueScript.Value.Basic
import Std.Data.TreeMap
import Std.Data.TreeSet

set_option autoImplicit false

/-!
# Scopes

Variables and functions live in frames. The root frame is always there and holds what the whole
program shares; every call pushes a frame of its own and pops it when it ends. Frames are numbered
from the root, which has number zero, and a frame knows the number of its parent.

A name is looked up along the *chain* that leads from a frame over its parents to the root. An
assignment does not follow the chain: it goes to the root if the root binds the name, and to the
frame itself otherwise, even where a frame in between hides the root's variable from readers.

## Main definitions

* `DialogueScript.Frame`, `DialogueScript.Scopes` — frames and their arrangement.
* `DialogueScript.Scopes.chain` — the frames that a reader sees, nearest first.
* `DialogueScript.Scopes.get?`, `DialogueScript.Scopes.assign` — reading and writing variables.
* `DialogueScript.Scopes.function?` — finding functions.
-/

namespace DialogueScript

/-- The number of a frame; the root's is zero. -/
abbrev ScopeId : Type :=
  Nat

/-- The variables and functions that one frame binds. -/
structure Frame where
  /-- The variables. -/
  vars : Std.TreeMap String Value
  /-- The functions. -/
  functions : Std.TreeMap String FunctionDecl

namespace Frame

/-- A frame that binds nothing. -/
def empty : Frame :=
  ⟨∅, ∅⟩

/-- Bind a variable, whether it is bound already or not. -/
def define (frame : Frame) (name : String) (value : Value) : Frame :=
  { frame with vars := frame.vars.insert name value }

/-- Bind a variable unless it is bound already. -/
def declare (frame : Frame) (name : String) (value : Value) : Frame :=
  { frame with vars := frame.vars.insertIfNew name value }

/-- Register a function under its name, in place of any earlier one. -/
def defineFunction (frame : Frame) (decl : FunctionDecl) : Frame :=
  { frame with functions := frame.functions.insert decl.name decl }

end Frame

/-- A frame that is not the root, with the number of its parent. -/
structure InnerFrame where
  /-- What it binds. -/
  frame : Frame
  /-- The number of its parent. -/
  parent : ScopeId

/-- The root frame and the frames above it: the frame with number `k + 1` is `inner[k]`. -/
structure Scopes where
  /-- The frame that the whole program shares. -/
  root : Frame
  /-- The other frames, oldest first. -/
  inner : Array InnerFrame

namespace Scopes

/-- The root frame alone, without bindings. -/
def empty : Scopes :=
  ⟨Frame.empty, #[]⟩

/-- The number of the root frame. -/
def rootId : ScopeId :=
  0

/-- The number of frames, the root included. -/
def depth (scopes : Scopes) : Nat :=
  scopes.inner.size + 1

/-! ## Pushing and popping -/

/-- Push an empty frame; its number is the depth before. -/
def push (scopes : Scopes) (parent : ScopeId) : Scopes :=
  { scopes with inner := scopes.inner.push ⟨Frame.empty, parent⟩ }

/-- Pop the newest frame. The root stays. -/
def pop (scopes : Scopes) : Scopes :=
  { scopes with inner := scopes.inner.pop }

/-! ## Frames -/

/-- The frame with the given number. -/
def frame? (scopes : Scopes) : ScopeId → Option Frame
  | 0 => some scopes.root
  | k + 1 => scopes.inner[k]?.map InnerFrame.frame

/-- Change the frame with the given number. -/
def modify (scopes : Scopes) (scope : ScopeId) (f : Frame → Frame) : Scopes :=
  match scope with
  | 0 => { scopes with root := f scopes.root }
  | k + 1 =>
    { scopes with
      inner := scopes.inner.modify k fun inner => { inner with frame := f inner.frame } }

/-- The frames from the given one to the root, following at most `hops` links to a parent before
the root is taken. -/
def chainWithin (scopes : Scopes) : (hops : Nat) → ScopeId → List Frame
  | _, 0 => [scopes.root]
  | 0, _ + 1 => [scopes.root]
  | hops + 1, k + 1 =>
    match scopes.inner[k]? with
    | some inner => inner.frame :: scopes.chainWithin hops inner.parent
    | none => [scopes.root]

/-- The frames from the given one to the root. A parent has a smaller number, so that the number
itself bounds the length of the way. -/
def chain (scopes : Scopes) (scope : ScopeId) : List Frame :=
  scopes.chainWithin scope scope

/-! ## Variables -/

/-- The value of a variable along the chain. -/
def get? (scopes : Scopes) (scope : ScopeId) (name : String) : Option Value :=
  (scopes.chain scope).findSome? fun frame => frame.vars[name]?

/-- The value of a variable along the chain; an unbound one is `nil`. -/
def lookup (scopes : Scopes) (scope : ScopeId) (name : String) : Value :=
  (scopes.get? scope name).getD .nil

/-- The frame itself binds the variable. -/
def hasLocal (scopes : Scopes) (scope : ScopeId) (name : String) : Bool :=
  match scopes.frame? scope with
  | some frame => frame.vars.contains name
  | none => false

/-- Bind a variable in a frame, whether it is bound there already or not. -/
def define (scopes : Scopes) (scope : ScopeId) (name : String) (value : Value) : Scopes :=
  scopes.modify scope fun frame => frame.define name value

/-- Assign to a variable: in the root if the root binds it, and otherwise in the frame. -/
def assign (scopes : Scopes) (scope : ScopeId) (name : String) (value : Value) : Scopes :=
  if scopes.root.vars.contains name then scopes.define rootId name value
  else scopes.define scope name value

/-- Declare a variable of the whole program; a new one is `nil`. -/
def declareGlobal (scopes : Scopes) (name : String) : Scopes :=
  scopes.modify rootId fun frame => frame.declare name .nil

/-- Declare a variable of a frame; a new one is zero. -/
def declareLocal (scopes : Scopes) (scope : ScopeId) (name : String) : Scopes :=
  scopes.modify scope fun frame => frame.declare name (.integer 0)

/-- The value of a variable of the whole program. -/
def global? (scopes : Scopes) (name : String) : Option Value :=
  scopes.root.vars[name]?

/-- Bind a variable of the whole program. -/
def setGlobal (scopes : Scopes) (name : String) (value : Value) : Scopes :=
  scopes.define rootId name value

/-- Bind some variables of the whole program, in order. -/
def setGlobals (scopes : Scopes) (bindings : List (String × Value)) : Scopes :=
  bindings.foldl (fun known (name, value) => known.setGlobal name value) scopes

/-- The variables of the whole program, by increasing name. -/
def globals (scopes : Scopes) : List (String × Value) :=
  scopes.root.vars.toList

/-! ## Functions -/

/-- Register a function in a frame. -/
def defineFunction (scopes : Scopes) (scope : ScopeId) (decl : FunctionDecl) : Scopes :=
  scopes.modify scope fun frame => frame.defineFunction decl

/-- The function of the given name along the chain. -/
def function? (scopes : Scopes) (scope : ScopeId) (name : String) : Option FunctionDecl :=
  (scopes.chain scope).findSome? fun frame => frame.functions[name]?

/-- The names of the functions along the chain, increasing and each once. -/
def functionNames (scopes : Scopes) (scope : ScopeId) : List String :=
  (Std.TreeSet.ofList
    ((scopes.chain scope).flatMap fun frame => frame.functions.keys)).toList

end Scopes

end DialogueScript
