set_option autoImplicit false

/-!
# Commands

What a script asks the outside world to show. A command describes what should happen and not how;
its arguments are the texts of the values that the script passed.

## Main definitions

* `DialogueScript.Command` — commands.
* `DialogueScript.Command.shown` — the line a console prints for a command.
-/

namespace DialogueScript

/-- Something to be shown. -/
inductive Command
  /-- Play the sound of a dialogue. -/
  | playDialogSound (sound : String)
  /-- Show a comment of the level's designer. -/
  | designerComment (text : String)
  /-- Hide all answers. -/
  | clearAnswers
  /-- Offer an answer. -/
  | addAnswer (text id : String)
  /-- Play a film. -/
  | playMovie (name : String)
  /-- Start a track. -/
  | startTrack (track : String)
  /-- Stop a track. -/
  | stopTrack (track : String)
  /-- Wait; the amount has no unit. -/
  | delay (amount : String)
  deriving DecidableEq, Repr

/-- The line a console prints for a command. -/
def Command.shown : Command → String
  | .playDialogSound sound => "Play dialog sound: '" ++ sound ++ "'."
  | .designerComment text => "Level designer comment: '" ++ text ++ "'."
  | .clearAnswers => "Hide answers to the character you are talking to."
  | .addAnswer text id => "Add answer option (id '" ++ id ++ "'): '" ++ text ++ "'."
  | .playMovie name => "Launch video: '" ++ name ++ "'."
  | .startTrack track => "Start playing track: '" ++ track ++ "'."
  | .stopTrack track => "Stop playing track: '" ++ track ++ "'."
  | .delay amount => "Adding a delay of: '" ++ amount ++ "'."

end DialogueScript
