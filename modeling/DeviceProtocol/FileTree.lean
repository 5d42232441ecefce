import DeviceProtocol.Path
set_option autoImplicit false

namespace DeviceProtocol

inductive PathTarget where
  | file (content : Bytes)
  | directory
  | missing
  | notDirectory
  deriving DecidableEq, Repr

/-- Files and directories by their paths from the root; a directory has no content. -/
structure FileTree where
  entries : List (List Text × Option Bytes) := []
  directory : List Text := []
  deriving DecidableEq, Repr

namespace FileTree

/-- The directory in which a path starts. -/
def start (tree : FileTree) (path : Text) : List Text := if Path.isAbsolute path then [] else tree.directory

def place (tree : FileTree) (path : Text) : List Text :=
  tree.start path ++ (Path.parts path).filter fun p => !Path.isIdle p

def set (tree : FileTree) (parts : List Text) (content : Option Bytes) : FileTree :=
  { tree with entries := (parts, content) :: tree.entries.filter fun e => e.1 != parts }

/-- Makes sure that the directories above a place exist. -/
def addParents (tree : FileTree) (parts : List Text) : FileTree :=
  (List.range parts.length).foldl (fun tree n =>
    if tree.entries.any fun e => e.1 == parts.take n then tree
    else tree.set (parts.take n) none) tree

def write (tree : FileTree) (path : Text) (content : Option Bytes) : FileTree :=
  (tree.addParents (tree.place path)).set (tree.place path) content

def remove (tree : FileTree) (path : Text) : FileTree :=
  { tree with entries := tree.entries.filter fun e => !(tree.place path).isPrefixOf e.1 }

def ofFiles (files : List (Text × Option Bytes)) (directory : List Text := []) : FileTree :=
  files.foldl (fun tree file => tree.write file.1 file.2) { directory := directory }

/-- What the parts of a path lead to from a directory. The directory above the root is the root. -/
def walk (tree : FileTree) (directory : List Text) : List Text → PathTarget
  | [] => .directory
  | part :: parts =>
    if Path.isIdle part then tree.walk directory parts
    else if Path.isParent part then tree.walk directory.dropLast parts
    else match tree.entries.lookup (directory ++ [part]) with
      | none => .missing
      | some none => tree.walk (directory ++ [part]) parts
      | some (some content) => if parts.isEmpty then .file content else .notDirectory

/-- What a path leads to. The empty path leads nowhere. -/
def target (tree : FileTree) (path : Text) : PathTarget :=
  if path.isEmpty then .missing else tree.walk (tree.start path) (Path.parts path)

def file? (tree : FileTree) (path : Text) : Option Bytes :=
  match tree.target path with
  | .file content => some content
  | _ => none

end FileTree
end DeviceProtocol
