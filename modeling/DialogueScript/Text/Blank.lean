set_option autoImplicit false

/-!
# Blanks

Which characters separate the words of a text, and the operations that only look at that:
cutting blanks off both ends and splitting a text into its words.

A *blank* is a character with the Unicode property `White_Space`. The zero width space, the
byte order mark and the information separators do not have it.

## Main definitions

* `DialogueScript.Text.isBlank` — the blank characters.
* `DialogueScript.Text.trim` — a text without the blanks at its two ends.
* `DialogueScript.Text.words` — the maximal blank-free runs of a text.
-/

namespace DialogueScript.Text

/-! ## The blank characters -/

/-- The code points with the property `White_Space`, as closed ranges in increasing order. -/
def blankRanges : List (Nat × Nat) :=
  [(0x0009, 0x000D), (0x0020, 0x0020), (0x0085, 0x0085), (0x00A0, 0x00A0), (0x1680, 0x1680),
    (0x2000, 0x200A), (0x2028, 0x2029), (0x202F, 0x202F), (0x205F, 0x205F), (0x3000, 0x3000)]

/-- A character is blank when its code point lies in one of the ranges. -/
def isBlank (c : Char) : Bool :=
  blankRanges.any fun range => decide (range.1 ≤ c.toNat) && decide (c.toNat ≤ range.2)

example : blankRanges.Pairwise (fun a b => a.2 < b.1) := by decide

example : (blankRanges.map fun range => range.2 + 1 - range.1).sum = 25 := by decide

/-! ## Cutting and splitting -/

/-- A text without its leading blanks. -/
def trimStart (cs : List Char) : List Char :=
  cs.dropWhile isBlank

/-- A text without its trailing blanks. -/
def trimEnd (cs : List Char) : List Char :=
  (cs.reverse.dropWhile isBlank).reverse

/-- A text without the blanks at its two ends. -/
def trim (cs : List Char) : List Char :=
  trimEnd (trimStart cs)

/-- A text is blank when nothing but blanks stands in it. -/
def isBlankText (cs : List Char) : Bool :=
  cs.all isBlank

/-- Put a word, given by its characters in reverse, in front of the words after it; an empty
run is no word. -/
def closeWord (run : List Char) (later : List (List Char)) : List (List Char) :=
  if run.isEmpty then later else run.reverse :: later

/-- The words of a text that continues a word of which `run` has been read, last character
first. -/
def wordsFrom : (run : List Char) → List Char → List (List Char)
  | run, [] => closeWord run []
  | run, c :: cs =>
    if isBlank c then closeWord run (wordsFrom [] cs) else wordsFrom (c :: run) cs

/-- The words of a text: its maximal runs without a blank, in order. -/
def words (cs : List Char) : List (List Char) :=
  wordsFrom [] cs

end DialogueScript.Text
