import DialogueScript.Analysis.Diagnostic
import DialogueScript.Analysis.Occurrence
import DialogueScript.Interpreter.Builtin
import DialogueScript.Script.Basic

set_option autoImplicit false

/-!
# Checking scripts

A check reports everything that was wrong with the source and then goes through the script once
and notes what a run may stumble over: calls of functions that are neither declared anywhere in
the script nor built in, functions that are declared twice, functions declared inside a block, and
a `return` outside every function.

## Main definitions

* `DialogueScript.Finding` — what there is to note.
* `DialogueScript.findings` — the notes on a sequence of occurrences.
* `DialogueScript.Script.analyze` — all diagnostics of a script.
-/

namespace DialogueScript

/-- Something to note about a script. -/
inductive Finding
  /-- A function is called that is neither declared nor built in. -/
  | undefinedFunction (name : String) (place : Place)
  /-- A function is declared for the second time. -/
  | repeatedDeclaration (name : String)
  /-- A function is declared inside a block. -/
  | nestedDeclaration (name : String) (place : Place)
  /-- A `return` stands outside every function. -/
  | returnOutside
  deriving DecidableEq, Repr

/-- A place in words. -/
def Place.describe (place : Place) : String :=
  match place.function with
  | some name => "位于函数 '" ++ name ++ "'"
  | none => "位于顶层语句"

/-- The diagnostic for a finding in the given script. -/
def Finding.toDiagnostic (scriptId : String) : Finding → Diagnostic
  | .undefinedFunction name place =>
    ⟨.warn, scriptId, none, "调用了未定义的函数: **" ++ name ++ "**", some place.describe⟩
  | .repeatedDeclaration name =>
    ⟨.warn, scriptId, none, "函数 **" ++ name ++ "** 被重复声明", some "执行到的最后一个声明生效"⟩
  | .nestedDeclaration name place =>
    ⟨.info, scriptId, none, "函数 **" ++ name ++ "** 声明在语句块内部",
      some (place.describe ++ "；执行到该声明后仍注册到全局函数表")⟩
  | .returnOutside =>
    ⟨.info, scriptId, none, "函数外的 return", some "只会结束顶层语句列表"⟩

/-- What there is to note about one occurrence, when the functions in `declared` are declared
somewhere and those in `seen` have been declared before it. -/
def Occurrence.findings (declared seen : List String) : Occurrence → List Finding
  | .call name place =>
    if declared.contains name || Builtin.isName name then []
    else [.undefinedFunction name place]
  | .declaration name place =>
    (if seen.count name = 1 then [.repeatedDeclaration name] else []) ++
      (if place.topLevel then [] else [.nestedDeclaration name place])
  | .ret place => if place.function.isNone then [.returnOutside] else []

/-- What there is to note about some occurrences in order. -/
def findings (declared : List String) : (seen : List String) → List Occurrence → List Finding
  | _, [] => []
  | seen, occurrence :: later =>
    occurrence.findings declared seen ++
      findings declared (seen ++ occurrence.declared?.toList) later

/-- The diagnostic for something wrong with the source of a script. -/
def ParseError.toDiagnostic (scriptId : String) (error : ParseError) : Diagnostic :=
  ⟨.error, scriptId, some error.line, error.message, none⟩

namespace Script

/-- The functions that a script declares at any depth, in the order of the source. -/
def declared (script : Script) : List String :=
  declaredNames script.statements

/-- What there is to note about a script. -/
def findings (script : Script) : List Finding :=
  DialogueScript.findings script.declared []
    (Stmt.listOccurrences Place.outside script.statements)

/-- All diagnostics of a script: first what was wrong with its source, then the findings. -/
def analyze (script : Script) : List Diagnostic :=
  script.errors.map (ParseError.toDiagnostic script.id) ++
    script.findings.map (Finding.toDiagnostic script.id)

end Script

end DialogueScript
