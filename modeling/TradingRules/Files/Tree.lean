import TradingRules.Files.Disk
import TradingRules.Files.Path

/-!
# Trees of files

Files and directories as a value. Paths start at the root of the tree, which is the working
directory. Outside of it, above the root or at the start of an absolute path, there are directories
that hold nothing.
-/

namespace TradingRules

inductive FileTree where
  | file (content : ByteArray)
  | directory (entries : List (String × FileTree))

namespace FileTree

def empty : FileTree := .directory []

/-- The entry with a name. -/
def find? : List (String × FileTree) → String → Option FileTree
  | [], _ => none
  | (n, t) :: rest, name => if n = name then some t else find? rest name

/-- Puts an entry in a directory, in place of an earlier one of its name. -/
def put : List (String × FileTree) → String → FileTree → List (String × FileTree)
  | [], name, t => [(name, t)]
  | (n, u) :: rest, name, t => if n = name then (n, t) :: rest else (n, u) :: put rest name t

/-- Adds a tree at a path, with the directories on the way to it. A directory that is there already
stays. -/
def insert : (root : FileTree) → (path : List String) → (added : FileTree) → FileTree
  | .directory entries, [], .directory [] => .directory entries
  | _, [], added => added
  | .directory entries, name :: rest, added =>
    .directory (put entries name (((find? entries name).getD empty).insert rest added))
  | .file _, name :: rest, added => .directory [(name, empty.insert rest added)]

/-- The bytes that a name in a path may have. -/
def longestName : Nat := 255

/-- The bytes that a path may have. -/
def longestPath : Nat := 4095

/-- Goes down from a place, given as the trees from there up to the root; no tree at all is a place
outside. A component asks for a directory, a file has none inside it, and a name is looked at only
where it is asked for. -/
def walk : List FileTree → List String → Except DiskFault FileTree
  | [], [] => .ok empty
  | [], name :: rest =>
    if name = "" ∨ name = "." ∨ name = ".." then walk [] rest
    else if longestName < name.utf8ByteSize then .error .nameTooLong
    else .error .notFound
  | here :: _, [] => .ok here
  | .file _ :: _, _ :: _ => .error .notADirectory
  | .directory entries :: above, name :: rest =>
    if name = "" ∨ name = "." then walk (.directory entries :: above) rest
    else if name = ".." then walk above rest
    else if longestName < name.utf8ByteSize then .error .nameTooLong
    else
      match find? entries name with
      | some t => walk (t :: .directory entries :: above) rest
      | none => .error .notFound

/-- The tree at a path. -/
def at? (root : FileTree) (path : String) : Except DiskFault FileTree :=
  if path.contains '\x00' then .error .zeroCharacter
  else if path.isEmpty then .error .notFound
  else if longestPath < path.utf8ByteSize then .error .nameTooLong
  else
    walk (if Path.isAbsolute path then [] else [root])
      ((Text.pieces '/' path.toList).map String.ofList)

def read (root : FileTree) (path : String) : Except DiskFault String :=
  match root.at? path with
  | .error e => .error e
  | .ok (.directory _) => .error .isADirectory
  | .ok (.file content) =>
    match String.fromUTF8? content with
    | some text => .ok text
    | none => .error .notUtf8

def list (root : FileTree) (path : String) : Except DiskFault (List String) :=
  match root.at? path with
  | .error e => .error e
  | .ok (.directory entries) => .ok (entries.map (·.1))
  | .ok (.file _) => .error .notADirectory

/-- The disk that holds this tree. -/
def disk (root : FileTree) : Disk Id where
  read path := root.read path
  list path := root.list path

end FileTree

end TradingRules
