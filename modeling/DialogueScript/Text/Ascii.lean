set_option autoImplicit false

/-!
# Case of ASCII letters

Some words of the language are recognised in any mixture of capital and small letters. Only the
twenty-six ASCII letters are folded; every other character stands for itself.

## Main definitions

* `DialogueScript.Text.foldCase` — a text with its ASCII capitals made small.
* `DialogueScript.Text.sameFolded` — equality of two texts up to the case of ASCII letters.
-/

namespace DialogueScript.Text

/-- A text with its ASCII capitals made small. -/
def foldCase (cs : List Char) : List Char :=
  cs.map Char.toLower

/-- Two texts agree up to the case of ASCII letters. -/
def sameFolded (a b : String) : Bool :=
  foldCase a.toList == foldCase b.toList

/-- A text agrees with one of the given words up to the case of ASCII letters. -/
def isOneOfFolded (a : String) (options : List String) : Bool :=
  options.any (sameFolded a)

end DialogueScript.Text
