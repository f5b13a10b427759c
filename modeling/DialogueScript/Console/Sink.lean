set_option autoImplicit false

/-!
# Sinks

Where a console writes to. A sink may have a limit: it keeps the bytes that fit, and a write that
does not fit as a whole fails.

## Main definitions

* `DialogueScript.Sink` — what has been written, and how much may be.
* `DialogueScript.Sink.write` — writing a text.
* `DialogueScript.Sink.text` — what has been written, as a text.
-/

namespace DialogueScript

/-- What has been written, and how much may be. -/
structure Sink where
  /-- How many bytes may be written; without it any number. -/
  limit : Option Nat
  /-- What has been written. -/
  written : ByteArray

namespace Sink

/-- An empty sink with the given limit. -/
def new (limit : Option Nat) : Sink :=
  ⟨limit, ByteArray.empty⟩

/-- Write bytes: as many as fit are kept, and the write succeeds if all do. -/
def writeBytes (sink : Sink) (bytes : ByteArray) : Bool × Sink :=
  match sink.limit with
  | none => (true, { sink with written := sink.written ++ bytes })
  | some limit =>
    let room := limit - sink.written.size
    if bytes.size ≤ room then (true, { sink with written := sink.written ++ bytes })
    else (false, { sink with written := sink.written ++ bytes.extract 0 room })

/-- Write a text. -/
def write (sink : Sink) (text : String) : Bool × Sink :=
  sink.writeBytes text.toUTF8

/-- The text of some bytes, of which at most the last `cut` may belong to an unfinished character;
these are shown as one replacement character. -/
def textWithin (bytes : ByteArray) : (cut : Nat) → Option String
  | 0 => String.fromUTF8? bytes
  | cut + 1 =>
    match textWithin bytes cut with
    | some text => some text
    | none =>
      (String.fromUTF8? (bytes.extract 0 (bytes.size - (cut + 1)))).map fun text =>
        text ++ "\uFFFD"

/-- What has been written, as a text. Only texts are written, so that the limit can cut at most
the last character, and an unfinished character has at most three bytes. -/
def text (sink : Sink) : String :=
  (textWithin sink.written 3).getD ""

end Sink

end DialogueScript
