set_option autoImplicit false

/-!
# Lines

A source text is read line by line. A line ends at a line feed, and a carriage return directly in
front of that line feed belongs to the line's end. The text after the last line feed is a line of
its own unless it is empty.

## Main definitions

* `DialogueScript.Text.lines` — the lines of a text, without their ends.
-/

namespace DialogueScript.Text

/-- Put a character in front of the first of some lines; with no lines it makes one. -/
def consLine (c : Char) : List (List Char) → List (List Char)
  | [] => [[c]]
  | line :: later => (c :: line) :: later

/-- The lines of a text, without their ends. -/
def lines : List Char → List (List Char)
  | [] => []
  | '\r' :: '\n' :: cs => [] :: lines cs
  | '\n' :: cs => [] :: lines cs
  | c :: cs => consLine c (lines cs)

example : lines "a\r\nb\n\nc\r".toList = ["a".toList, "b".toList, [], "c\r".toList] := by decide

example : lines [] = [] ∧ lines ['\n'] = [[]] ∧ lines ['\r', '\r', '\n'] = [['\r']] := by decide

end DialogueScript.Text
