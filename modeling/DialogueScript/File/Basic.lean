set_option autoImplicit false

/-!
# Files

What comes of an attempt to read a file.

## Main definitions

* `DialogueScript.FileError` — why a file cannot be read.
* `DialogueScript.FileRead` — the content of a file, or why there is none.
* `DialogueScript.FileRead.text` — the content as a text.
-/

namespace DialogueScript

/-- Why a file cannot be read. -/
inductive FileError
  /-- There is no such file. -/
  | notFound
  /-- Something on the way to the file is not a directory. -/
  | notADirectory
  /-- It is a directory. -/
  | isADirectory
  /-- The content is not UTF-8. -/
  | invalidText
  /-- Any other reason, in the words of the operating system. -/
  | other (message : String)
  deriving DecidableEq, Repr

/-- The wording of a reason. -/
def FileError.message : FileError → String
  | .notFound => "No such file or directory (os error 2)"
  | .notADirectory => "Not a directory (os error 20)"
  | .isADirectory => "Is a directory (os error 21)"
  | .invalidText => "stream did not contain valid UTF-8"
  | .other message => message

/-- The content of a file, or why there is none. -/
abbrev FileRead : Type :=
  Except FileError ByteArray

/-- The content of a file as a text. -/
def FileRead.text (file : FileRead) : Except FileError String :=
  match file with
  | .error error => .error error
  | .ok bytes =>
    match String.fromUTF8? bytes with
    | some text => .ok text
    | none => .error .invalidText

/-- There is something under the name of the file. -/
def FileRead.exists : FileRead → Bool
  | .error .notFound => false
  | .error .notADirectory => false
  | _ => true

end DialogueScript
