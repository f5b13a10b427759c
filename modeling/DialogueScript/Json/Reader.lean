import DialogueScript.Json.Number

set_option autoImplicit false

/-!
# Reading JSON

A strict reader: no comments, no trailing commas, no leading zeros, no raw control characters in
strings, no lone surrogates. Values that nobody asked for are read *leniently*: their shape has to
be right, but a number may have any size, an escape may name any code unit, and nesting has no
limit.

A reader takes something off the front of a text, or fails. The argument `room` of a reader is the
number of arrays and objects that may still be opened inside each other, and recursion is on this
number.

## Main definitions

* `DialogueScript.Json.Reader` — readers, a monad.
* `DialogueScript.Json.Reader.value` — read a value.
* `DialogueScript.Json.Reader.members` — read an object, each field in its own way.
* `DialogueScript.Json.parse?` — read a whole text.
-/

namespace DialogueScript.Json

/-- Takes something off the front of a text, or fails. -/
abbrev Reader (α : Type) : Type :=
  StateT (List Char) Option α

namespace Reader

/-! ## Characters -/

/-- The blanks of the format. -/
def isSpace (c : Char) : Bool :=
  c == ' ' || c == '\n' || c == '\t' || c == '\r'

/-- Pass over blanks. -/
def space : Reader Unit :=
  modify fun cs => cs.dropWhile isSpace

/-- Look at the next character. -/
def peek? : Reader (Option Char) := do
  let cs ← get
  return cs.head?

/-- Take the given character. -/
def expect (c : Char) : Reader Unit := do
  match ← get with
  | d :: cs => if c = d then set cs else failure
  | [] => failure

/-- Take the given characters. -/
def expectAll : List Char → Reader Unit
  | [] => pure ()
  | c :: cs => do
    expect c
    expectAll cs

/-- Give a reader as much fuel as there are characters ahead. A loop that takes a character in
each round never uses it up. -/
def fuelled {α : Type} (r : Nat → Reader α) : Reader α := do
  let cs ← get
  r (cs.length + 1)

/-! ## Strings -/

/-- A piece of a string: a character, or a code unit given by its number. -/
inductive Piece
  /-- A character. -/
  | char (c : Char)
  /-- A UTF-16 code unit. -/
  | codeUnit (u : Nat)

/-- The value of a hexadecimal digit. -/
def hexValue? (c : Char) : Option Nat :=
  if c.isDigit then some (c.toNat - '0'.toNat)
  else if 'a' ≤ c ∧ c ≤ 'f' then some (c.toNat - 'a'.toNat + 10)
  else if 'A' ≤ c ∧ c ≤ 'F' then some (c.toNat - 'A'.toNat + 10)
  else none

/-- The code unit that four hexadecimal digits denote. -/
def codeUnit? (a b c d : Char) : Option Nat := do
  let a ← hexValue? a
  let b ← hexValue? b
  let c ← hexValue? c
  let d ← hexValue? d
  return ((a * 16 + b) * 16 + c) * 16 + d

/-- The character that a single letter behind a backslash stands for. -/
def escaped? (c : Char) : Option Char :=
  match c with
  | '"' => some '"'
  | '\\' => some '\\'
  | '/' => some '/'
  | 'b' => some '\x08'
  | 'f' => some '\x0c'
  | 'n' => some '\n'
  | 'r' => some '\r'
  | 't' => some '\t'
  | _ => none

/-- The pieces of a string up to its closing quote, and the text behind that. -/
def pieces? : List Char → Option (List Piece × List Char)
  | [] => none
  | '"' :: cs => some ([], cs)
  | '\\' :: 'u' :: a :: b :: c :: d :: cs => do
    let unit ← codeUnit? a b c d
    let (later, rest) ← pieces? cs
    return (.codeUnit unit :: later, rest)
  | '\\' :: e :: cs => do
    let c ← escaped? e
    let (later, rest) ← pieces? cs
    return (.char c :: later, rest)
  | c :: cs =>
    if c < ' ' ∨ c = '\\' then none
    else do
      let (later, rest) ← pieces? cs
      return (.char c :: later, rest)

/-- The text that some pieces make. Two code units that form a surrogate pair make one character,
and a surrogate outside such a pair makes none. -/
def join? : List Piece → Option (List Char)
  | [] => some []
  | .char c :: later => (join? later).map (c :: ·)
  | .codeUnit high :: .codeUnit low :: later =>
    if 0xD800 ≤ high ∧ high < 0xDC00 then
      if 0xDC00 ≤ low ∧ low < 0xE000 then
        (join? later).map (Char.ofNat (0x10000 + (high - 0xD800) * 0x400 + (low - 0xDC00)) :: ·)
      else none
    else if 0xDC00 ≤ high ∧ high < 0xE000 then none
    else (join? (.codeUnit low :: later)).map (Char.ofNat high :: ·)
  | .codeUnit u :: later =>
    if 0xD800 ≤ u ∧ u < 0xE000 then none
    else (join? later).map (Char.ofNat u :: ·)

/-- A quoted string. Read leniently it need not be a text, and the empty one stands for it. -/
def quoted (strict : Bool) : Reader String := do
  expect '"'
  match pieces? (← get) with
  | none => failure
  | some (pieces, rest) =>
    set rest
    match join? pieces with
    | some cs => return String.ofList cs
    | none => if strict then failure else return ""

/-! ## Numbers -/

/-- A number. Read leniently it may be too large, and `null` stands for it. -/
def number (strict : Bool) : Reader Json := do
  match Numeral.read? (← get) with
  | none => failure
  | some (numeral, rest) =>
    set rest
    match numeral.value? with
    | some json => return json
    | none => if strict then failure else return .null

/-! ## Arrays and objects -/

/-- The items of an array up to the closing bracket; there is at least one. -/
def itemsWithin {α : Type} (item : Reader α) : (fuel : Nat) → Reader (List α)
  | 0 => failure
  | fuel + 1 => do
    space
    let first ← item
    space
    match ← peek? with
    | some ',' =>
      expect ','
      let later ← itemsWithin item fuel
      return first :: later
    | _ =>
      expect ']'
      return [first]

/-- An array. -/
def items {α : Type} (item : Reader α) : Reader (List α) := do
  expect '['
  space
  match ← peek? with
  | some ']' =>
    expect ']'
    return []
  | _ => fuelled (itemsWithin item)

/-- The fields of an object up to the closing brace; there is at least one. -/
def membersWithin {α : Type} (name : Reader String) (item : String → Reader α) :
    (fuel : Nat) → Reader (List (String × α))
  | 0 => failure
  | fuel + 1 => do
    space
    let key ← name
    space
    expect ':'
    space
    let value ← item key
    space
    match ← peek? with
    | some ',' =>
      expect ','
      let later ← membersWithin name item fuel
      return (key, value) :: later
    | _ =>
      expect '\x7d'
      return [(key, value)]

/-- An object whose fields are read in a way that may depend on their names. A name may occur more
than once. -/
def members {α : Type} (name : Reader String) (item : String → Reader α) :
    Reader (List (String × α)) := do
  expect '\x7b'
  space
  match ← peek? with
  | some '\x7d' =>
    expect '\x7d'
    return []
  | _ => fuelled (membersWithin name item)

/-! ## Values -/

/-- A value, given how the values inside it are read; without such a reader it is not an array or
object. Of the fields with one name the last counts. -/
def valueWith (strict : Bool) (inner : Reader Json) : Reader Json := do
  match ← peek? with
  | some 'n' =>
    expectAll ['n', 'u', 'l', 'l']
    return .null
  | some 't' =>
    expectAll ['t', 'r', 'u', 'e']
    return .bool true
  | some 'f' =>
    expectAll ['f', 'a', 'l', 's', 'e']
    return .bool false
  | some '"' =>
    let text ← quoted strict
    return .string text
  | some '[' =>
    let values ← items inner
    return .array values
  | some '\x7b' =>
    let fields ← members (quoted strict) fun _ => inner
    return .object (fields.foldl (fun known (name, value) => putField name value known) [])
  | _ => number strict

/-- Fails if an array or object begins here. -/
def scalar (strict : Bool) : Reader Json := do
  match ← peek? with
  | some '[' => failure
  | some '\x7b' => failure
  | _ => valueWith strict failure

/-- A value with room for arrays and objects inside each other. -/
def value (strict : Bool) : (room : Nat) → Reader Json
  | 0 => scalar strict
  | room + 1 => valueWith strict (value strict room)

/-- A value that nobody asked for. Every array or object inside another takes a character, so the
room is never used up. -/
def lenientValue : Reader Json :=
  fuelled fun fuel => value false fuel

/-- A whole text, blanks around it included. -/
def runOn {α : Type} (r : Reader α) (text : String) : Option α :=
  match (do space; let a ← r; space; return a : Reader α) text.toList with
  | some (a, []) => some a
  | _ => none

end Reader

/-- Read a whole text as one value with the given room for arrays and objects. -/
def parse? (room : Nat) (text : String) : Option Json :=
  (Reader.value true room).runOn text

end DialogueScript.Json
