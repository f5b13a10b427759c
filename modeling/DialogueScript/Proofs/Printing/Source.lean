import DialogueScript.Proofs.Parser.Grammar
import DialogueScript.Token.Lexer
import Mathlib.Data.List.Infix

set_option autoImplicit false

/-!
# Printing programs

A statement is printed with one *line* for its head and one for each word that divides or closes
its blocks. An `else` is printed only for a block that is not empty, and the parentheses of a
declaration only around parameters; items are separated by a comma and a blank.

Not every tree has a spelling: a name has to be one for the line splitter too, a text cannot hold
a quote, and a comparison has both sides and compares for equality. The trees that do have one are
*printable*.

## Main definitions

* `DialogueScript.Line` — the lines of a printed program, with `DialogueScript.Line.source`.
* `DialogueScript.Stmt.lines` — the lines of a statement.
* `DialogueScript.Stmt.listSource` — the source text of a program.
* `DialogueScript.Stmt.isPrintable` — the statements that have a spelling.
-/

namespace DialogueScript

/-! ## Expressions -/

/-- Items with a comma and a blank between them. -/
def Text.withCommas (items : List (List Char)) : List Char :=
  [',', ' '].intercalate items

/-- Items in parentheses. -/
def Text.inParentheses (items : List (List Char)) : List Char :=
  '(' :: withCommas items ++ [')']

mutual

/-- The text of an expression. -/
def Expr.source : Expr → List Char
  | .literal .string text => '"' :: text.toList ++ ['"']
  | .literal _ text => text.toList
  | .var name => name.toList
  | .call name args => name.toList ++ Text.inParentheses (Expr.listSource args)
  | .binary left _ right => Expr.optionSource left ++ (" = ".toList ++ Expr.optionSource right)

/-- The texts of some expressions. -/
def Expr.listSource : List Expr → List (List Char)
  | [] => []
  | expr :: later => expr.source :: Expr.listSource later

/-- The text of an expression that may be missing. -/
def Expr.optionSource : Option Expr → List Char
  | none => []
  | some expr => expr.source

end

/-- The text of a condition. -/
def Condition.source (condition : Condition) : List Char :=
  Expr.optionSource condition.left ++ (" = ".toList ++ Expr.optionSource condition.right)

/-! ## Lines -/

/-- A line of a printed program. -/
inductive Line
  /-- A reserved word. -/
  | reserved (word : String)
  /-- A reserved word and an expression. -/
  | operand (word : String) (value : Expr)
  /-- A reserved word and the comparison that it guards a block with. -/
  | guard (word : String) (condition : Condition)
  /-- A reserved word and the names that it declares. -/
  | declared (word : String) (names : List String)
  /-- The head of a function declaration. -/
  | head (name : String) (params : List String)
  /-- An assignment. -/
  | assign (name : String) (value : Expr)
  /-- A call. -/
  | call (name : String) (args : List Expr)

namespace Line

/-- The text of a line. -/
def source : Line → List Char
  | .reserved word => word.toList
  | .operand word value => word.toList ++ ' ' :: value.source
  | .guard word condition => word.toList ++ ' ' :: condition.source
  | .declared word names => word.toList ++ ' ' :: Text.withCommas (names.map String.toList)
  | .head name [] => "code".toList ++ ' ' :: name.toList
  | .head name (param :: params) =>
    "code".toList ++ ' ' ::
      (name.toList ++ Text.inParentheses ((param :: params).map String.toList))
  | .assign name value => name.toList ++ (" = ".toList ++ value.source)
  | .call name args => name.toList ++ Text.inParentheses (Expr.listSource args)

end Line

/-! ## Statements -/

mutual

/-- The lines of a statement. -/
def Stmt.lines : Stmt → List Line
  | .assign name value => [.assign name value]
  | .call name args => [.call name args]
  | .declare name params body => .head name params :: Stmt.listLines body ++ [.reserved "endcode"]
  | .globals names => [.declared "global" names]
  | .locals [] => [.reserved "local"]
  | .locals names => [.declared "local" names]
  | .branch condition thenBody [] =>
    .guard "if" condition :: Stmt.listLines thenBody ++ [.reserved "endif"]
  | .branch condition thenBody (first :: later) =>
    .guard "if" condition :: Stmt.listLines thenBody ++
      .reserved "else" :: Stmt.listLines (first :: later) ++ [.reserved "endif"]
  | .select selector cases =>
    .operand "switch" selector :: CaseBlock.listLines cases ++ [.reserved "endswitch"]
  | .loop condition body =>
    .guard "while" condition :: Stmt.listLines body ++ [.reserved "endwhile"]
  | .ret none => [.reserved "return"]
  | .ret (some value) => [.operand "return" value]
  | .exitCode => [.reserved "exitcode"]

/-- The lines of some statements. -/
def Stmt.listLines : List Stmt → List Line
  | [] => []
  | stmt :: later => stmt.lines ++ Stmt.listLines later

/-- The lines of a case. -/
def CaseBlock.lines : CaseBlock → List Line
  | ⟨value, body⟩ => .operand "case" value :: Stmt.listLines body

/-- The lines of some cases. -/
def CaseBlock.listLines : List CaseBlock → List Line
  | [] => []
  | block :: later => block.lines ++ CaseBlock.listLines later

end

/-- The source text of a program: its lines, each with a line feed behind it. -/
def Stmt.listSource (statements : List Stmt) : String :=
  String.ofList ((Stmt.listLines statements).flatMap fun line => line.source ++ ['\n'])

/-! ## What can be printed -/

/-- The two slashes that begin a comment do not occur. -/
def Text.hasNoComment (cs : List Char) : Bool :=
  decide (¬ ['/', '/'] <:+: cs)

/-- A run of characters that stays in one piece: no blank, parenthesis, comma or quote in it, no
equals sign at its beginning, and no comment. -/
def Text.isSolid (cs : List Char) : Bool :=
  (!cs.isEmpty) && cs.all (fun c => !isBlank c && !Lexeme.isPunctuation c && c != '"') &&
    cs.head? != some '=' && hasNoComment cs

/-- The spellings of names: runs that stay in one piece and are neither a Boolean, a number nor a
reserved word. -/
def Text.isName (name : String) : Bool :=
  isSolid name.toList && !isOneOfFolded name ["true", "false"] &&
    !name.toList.all Char.isDigit && !reservedWords.contains name &&
    !isOneOfFolded name Token.caselessWords

/-- The texts that a literal of a sort can have. -/
def LiteralKind.isSpelling : LiteralKind → String → Bool
  | .string, text =>
    text.toList.all (fun c => c != '"' && c != '\n') && Text.hasNoComment text.toList
  | .number, text => (!text.toList.isEmpty) && text.toList.all Char.isDigit
  | .boolean, text => text == "true" || text == "false"

mutual

/-- An expression that has a spelling. -/
def Expr.isPrintable : Expr → Bool
  | .literal kind text => kind.isSpelling text
  | .var name => Text.isName name
  | .call name args => Text.isName name && Expr.listIsPrintable args
  | .binary _ _ _ => false

/-- Each of some expressions has a spelling. -/
def Expr.listIsPrintable : List Expr → Bool
  | [] => true
  | expr :: later => expr.isPrintable && Expr.listIsPrintable later

end

/-- A condition that has a spelling: both sides are there, and they are compared for equality. -/
def Condition.isPrintable : Condition → Bool
  | ⟨some left, .eq, some right⟩ => left.isPrintable && right.isPrintable
  | _ => false

mutual

/-- A statement that has a spelling. -/
def Stmt.isPrintable : Stmt → Bool
  | .assign name value => Text.isName name && value.isPrintable
  | .call name args => Text.isName name && Expr.listIsPrintable args
  | .declare name params body =>
    Text.isName name && params.all Text.isName && Stmt.listIsPrintable body
  | .globals names => (!names.isEmpty) && names.all Text.isName
  | .locals names => names.all Text.isName
  | .branch condition thenBody elseBody =>
    condition.isPrintable && Stmt.listIsPrintable thenBody && Stmt.listIsPrintable elseBody
  | .select selector cases => selector.isPrintable && CaseBlock.listIsPrintable cases
  | .loop condition body => condition.isPrintable && Stmt.listIsPrintable body
  | .ret none => true
  | .ret (some value) => value.isPrintable
  | .exitCode => true

/-- Each of some statements has a spelling. -/
def Stmt.listIsPrintable : List Stmt → Bool
  | [] => true
  | stmt :: later => stmt.isPrintable && Stmt.listIsPrintable later

/-- A case that has a spelling. -/
def CaseBlock.isPrintable : CaseBlock → Bool
  | ⟨value, body⟩ => value.isPrintable && Stmt.listIsPrintable body

/-- Each of some cases has a spelling. -/
def CaseBlock.listIsPrintable : List CaseBlock → Bool
  | [] => true
  | block :: later => block.isPrintable && CaseBlock.listIsPrintable later

end

end DialogueScript
