import DialogueScript.File.Basic

set_option autoImplicit false

/-!
# Directory trees

A directory with everything in it, as a value. Paths are relative to it, with slashes between
their components; `.` stands for the directory itself and `..` for the one around it.

## Main definitions

* `DialogueScript.FileTree` — files and directories.
* `DialogueScript.FileTree.ofEntries` — the tree of some paths and contents.
* `DialogueScript.FileTree.resolve` — following a path.
* `DialogueScript.FileTree.files` — all files in a tree.
-/

namespace DialogueScript

/-- A file or a directory. -/
inductive FileTree
  /-- A file with its content. -/
  | file (content : ByteArray)
  /-- A directory with what is in it, by name. -/
  | directory (entries : List (String × FileTree))

namespace FileTree

/-- The components of a path. An empty one, also behind a slash at the end, stands for the
directory that it is in. -/
def components (path : String) : List String :=
  (path.splitOn "/").map fun name => if name = "" then "." else name

/-- What is in a directory. -/
def entries : FileTree → List (String × FileTree)
  | file _ => []
  | directory entries => entries

/-- The entry of the given name. -/
def find? (name : String) : List (String × FileTree) → Option FileTree
  | [] => none
  | (key, tree) :: later => if key = name then some tree else find? name later

/-- Set the entry of the given name. -/
def put (name : String) (tree : FileTree) :
    List (String × FileTree) → List (String × FileTree)
  | [] => [(name, tree)]
  | (key, old) :: later =>
    if key = name then (key, tree) :: later else (key, old) :: put name tree later

/-- Put something at the end of a path, making the directories on the way. -/
def insert (leaf : FileTree) : List String → FileTree → FileTree
  | [], tree =>
    match leaf, tree with
    | directory [], directory old => directory old
    | new, _ => new
  | name :: names, tree =>
    if name = "." then insert leaf names tree
    else
      let inner := (find? name tree.entries).getD (directory [])
      directory (put name (insert leaf names inner) tree.entries)

/-- The tree of some paths and contents; without a content the path is a directory. -/
def ofEntries (files : List (String × Option ByteArray)) : FileTree :=
  files.foldl
    (fun tree (path, content) =>
      let leaf :=
        match content with
        | some bytes => file bytes
        | none => directory []
      insert leaf (components path) tree)
    (directory [])

/-- Follow components from a directory; `around` are the directories around it, innermost first.
Around the outermost directory nothing is known but that it is one. -/
def follow (around : List FileTree) (tree : FileTree) :
    List String → Except FileError FileTree
  | [] => .ok tree
  | name :: names =>
    match tree with
    | file _ => .error .notADirectory
    | directory entries =>
      if name = "." then follow around tree names
      else if name = ".." then
        match around with
        | [] => follow [] (directory []) names
        | outer :: outers => follow outers outer names
      else
        match find? name entries with
        | some inner => follow (tree :: around) inner names
        | none => .error .notFound

/-- Follow a path. Absolute and empty paths lead nowhere. -/
def resolve (tree : FileTree) (path : String) : Except FileError FileTree :=
  if path = "" ∨ path.startsWith "/" then .error .notFound
  else follow [] tree (components path)

/-- Read the file at a path. -/
def read (tree : FileTree) (path : String) : FileRead :=
  match tree.resolve path with
  | .ok (file content) => .ok content
  | .ok (directory _) => .error .isADirectory
  | .error error => .error error

mutual

/-- All files in a tree, each with the components of its path. -/
def files : FileTree → List (List String × ByteArray)
  | file content => [([], content)]
  | directory entries => filesOfEntries entries

/-- All files in the entries of a directory. -/
def filesOfEntries : List (String × FileTree) → List (List String × ByteArray)
  | [] => []
  | (name, tree) :: later =>
    (tree.files.map fun (path, content) => (name :: path, content)) ++ filesOfEntries later

end

end FileTree

end DialogueScript
