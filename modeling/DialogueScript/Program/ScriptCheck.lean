import DialogueScript.Analysis.Check
import DialogueScript.File.Tree
import DialogueScript.Program.Launch

set_option autoImplicit false

/-!
# The checking program

    script-check [PATH]

The program checks a script, or all scripts in a directory, and reports on them. Scripts are the
files with the extension `tscript`; a file that is named itself is checked whatever it is called.

## Main definitions

* `DialogueScript.ScriptCheck.scriptsAt` — the scripts that a path stands for.
* `DialogueScript.ScriptCheck.report` — the report on some scripts.
* `DialogueScript.ScriptCheck.run` — the whole program.
-/

namespace DialogueScript.ScriptCheck

/-! ## Finding scripts -/

/-- The extension of scripts. -/
def scriptExtension : String :=
  "tscript"

/-- The directory that is checked where no path is given. -/
def defaultDirectory : String :=
  "scripts"

/-- The extension of a file name: what stands behind its last point, unless that is its first
character. -/
def extension? (name : String) : Option String :=
  let reversed := name.toList.reverse
  match reversed.dropWhile (· != '.') with
  | [] => none
  | [_] => none
  | _ => some (String.ofList (reversed.takeWhile (· != '.')).reverse)

/-- A file with this name is a script. -/
def isScriptName (name : String) : Bool :=
  extension? name == some scriptExtension

/-- The path of a file inside a directory. -/
def joinPath (directory : String) (components : List String) : String :=
  let inner := "/".intercalate components
  if directory.endsWith "/" then directory ++ inner else directory ++ "/" ++ inner

/-- The scripts in a directory, sorted by the components of their paths. -/
def scriptsIn (path : String) (tree : FileTree) : List (String × ByteArray) :=
  let found := tree.files.filter fun (components, _) =>
    match components.getLast? with
    | some name => isScriptName name
    | none => false
  let sorted := found.mergeSort fun a b => (compare a.1 b.1).isLE
  sorted.map fun (components, content) => (joinPath path components, content)

/-- Why there is nothing to check. -/
inductive Failure
  /-- There is nothing at the given path. -/
  | noPath (path : String)
  /-- The default directory does not exist. -/
  | noDefaultDirectory
  /-- Errors were found. -/
  | errorsFound
  /-- The program does not know the command. -/
  | unknownCommand (name : String)

/-- The wording of a failure. -/
def Failure.message : Failure → String
  | .noPath path => "路径不存在: " ++ path
  | .noDefaultDirectory =>
    "默认脚本目录不存在: " ++ defaultDirectory ++ "\n请在 workspace 根目录运行，或指定脚本路径"
  | .errorsFound => "脚本检查发现错误"
  | .unknownCommand name => "unknown xtask subcommand: " ++ name

/-- The scripts that a path stands for: the file itself, or all scripts in the directory. -/
def scriptsAt (tree : FileTree) : Option String → Except Failure (List (String × ByteArray))
  | some path =>
    match tree.resolve path with
    | .ok (.file content) => .ok [(path, content)]
    | .ok (.directory entries) => .ok (scriptsIn path (.directory entries))
    | .error _ => .error (.noPath path)
  | none =>
    match tree.resolve defaultDirectory with
    | .ok found => .ok (scriptsIn defaultDirectory found)
    | .error _ => .error .noDefaultDirectory

/-! ## Checking them -/

/-- A script that was read, or why it could not be. -/
def loadScript (path : String) (content : ByteArray) : Except FileError Script :=
  (FileRead.text (.ok content)).map (Script.load path)

/-- What a check of some scripts has found. -/
structure Tally where
  /-- The lines for scripts that could not be read. -/
  unreadable : List String
  /-- The scripts that were read. -/
  scripts : List Script

/-- Read some scripts. -/
def tally : List (String × ByteArray) → Tally
  | [] => ⟨[], []⟩
  | (path, content) :: later =>
    let rest := tally later
    match loadScript path content with
    | .ok script => { rest with scripts := script :: rest.scripts }
    | .error error =>
      { rest with
        unreadable :=
          ("[ERROR] " ++ path ++ ": 无法读取文件 - " ++ error.message) :: rest.unreadable }

/-- Some lines, each with its end. -/
def lines (texts : List String) : String :=
  String.join (texts.map fun text => text ++ "\n")

/-- The last line of a report. -/
def verdict (errors warnings : Nat) : String :=
  if 0 < errors then
    "❌ " ++ Text.natText errors ++ " 个错误, " ++ Text.natText warnings ++ " 个警告"
  else if 0 < warnings then "⚠️  0 个错误, " ++ Text.natText warnings ++ " 个警告"
  else "✅ 检查通过，无错误"

/-- The line between the reading and the report. -/
def rule : String :=
  String.ofList (List.replicate 53 '─')

/-- The report on some scripts, and whether there were errors. -/
def report (files : List (String × ByteArray)) : String × Bool :=
  let found := tally files
  let diagnostics := found.scripts.flatMap Script.analyze
  let functions := (found.scripts.flatMap Script.declared).length
  let errors := found.unreadable.length + Diagnostic.count .error diagnostics
  let listing :=
    if diagnostics.isEmpty then [] else diagnostics.map Diagnostic.shown ++ [""]
  let text := lines
    (["==> 检查 " ++ Text.natText files.length ++ " 个脚本文件...\n"] ++ found.unreadable ++
      [rule, "检查完成: " ++ Text.natText files.length ++ " 个脚本, " ++ Text.natText functions ++
        " 个函数", ""] ++ listing ++
      [verdict errors (Diagnostic.count .warn diagnostics)])
  (text, decide (0 < errors))

/-- Check what a path stands for. -/
def check (tree : FileTree) (path : Option String) : String × Option Failure :=
  match scriptsAt tree path with
  | .error failure => ("", some failure)
  | .ok [] => (lines ["未找到脚本文件（." ++ scriptExtension ++ "）"], none)
  | .ok files =>
    let (text, failed) := report files
    (text, if failed then some .errorsFound else none)

/-! ## The program -/

/-- What the program can do. -/
def help : String :=
  lines
    ["xtask - 开发辅助工具", "", "USAGE:", "  cargo xtask <command>", "", "COMMANDS:",
      "  check-all       运行 fmt、clippy、test 门禁检查",
      "  cov-runtime     运行 titanic-runtime 覆盖率报告",
      "  script-check    检查脚本文件", "", "SCRIPT-CHECK:",
      "  cargo xtask script-check [path]", "",
      "  不带参数：检查 scripts/ 下所有 .tscript 文件",
      "  带路径参数：检查指定文件或目录", "", "  检查内容：", "    - 脚本语法错误",
      "    - 调用了既未声明也非内置的函数", "    - 重复声明、语句块内声明的函数",
      "    - 函数外的 return", "", "ALIASES (in .cargo/config.toml):",
      "  cargo check-all     -> cargo xtask check-all",
      "  cargo cov-runtime   -> cargo xtask cov-runtime",
      "  cargo script-check  -> cargo xtask script-check", ""]

/-- What the program leaves behind: everything it writes goes to the error output. -/
def conclude (text : String) : Option Failure → ProgramResult
  | none => ⟨0, "", text⟩
  | some failure => ⟨1, "", text ++ "xtask error: " ++ failure.message ++ "\n"⟩

/-- The whole program in a directory. Without arguments it gives help. -/
def run (args : List String) (tree : FileTree) : ProgramResult :=
  match args with
  | [] => conclude help none
  | "script-check" :: rest =>
    let (text, failure) := check tree rest.head?
    conclude text failure
  | command :: _ =>
    if ["help", "-h", "--help"].contains command then conclude help none
    else conclude "" (some (.unknownCommand command))

end DialogueScript.ScriptCheck
