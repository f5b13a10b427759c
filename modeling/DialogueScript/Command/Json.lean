import DialogueScript.Command.Basic
import DialogueScript.Json.Basic

set_option autoImplicit false

/-!
# Commands as JSON

## Main definitions

* `DialogueScript.Command.toJson`, `DialogueScript.Command.ofJson?` — a command in tagged form.
-/

namespace DialogueScript.Command

/-- A command with one text. -/
def toJsonWith (tag field text : String) : Json :=
  .tagged tag (.object [(field, .string text)])

/-- Write a command. -/
def toJson : Command → Json
  | playDialogSound sound => toJsonWith "PlayDialogSound" "sound" sound
  | designerComment text => toJsonWith "DesignerComment" "text" text
  | clearAnswers => .string "ClearAnswers"
  | addAnswer text id =>
    .tagged "AddAnswer" (.object [("text", .string text), ("id", .string id)])
  | playMovie name => toJsonWith "PlayMovie" "name" name
  | startTrack track => toJsonWith "StartTrack" "track" track
  | stopTrack track => toJsonWith "StopTrack" "track" track
  | delay amount => toJsonWith "Delay" "amount" amount

/-- Read a command. -/
def ofJson? (json : Json) : Option Command := do
  let (tag, body) ← json.variant?
  let text (field : String) : Option String := (body.field? field).bind Json.string?
  match tag with
  | "PlayDialogSound" => (text "sound").map playDialogSound
  | "DesignerComment" => (text "text").map designerComment
  | "ClearAnswers" =>
    match body with
    | .null => return clearAnswers
    | _ => none
  | "AddAnswer" =>
    let shown ← text "text"
    let id ← text "id"
    return addAnswer shown id
  | "PlayMovie" => (text "name").map playMovie
  | "StartTrack" => (text "track").map startTrack
  | "StopTrack" => (text "track").map stopTrack
  | "Delay" => (text "amount").map delay
  | _ => none

end DialogueScript.Command
