import DeviceProtocol.Log
import DeviceProtocol.ProtocolFile.Load
import DeviceProtocol.SearchPath
set_option autoImplicit false

/-!
A library of protocol files on a search path. A file is read when it is first asked for and kept under
the name it was asked for, also if it turns out to be invalid; later changes on disk are not noticed.
-/
namespace DeviceProtocol

structure Library where
  path : List Text := [['.']]
  files : List (Text × ProtocolFile) := []
  deriving DecidableEq, Repr

namespace Library

/-- The file of this name, or else the first one whose name starts with it. -/
def cached (l : Library) (name : Text) : Option ProtocolFile :=
  ((l.files.find? fun e => e.1 == name).or
    (l.files.find? fun e => name.isPrefixOf e.1)).map Prod.snd

def candidates (l : Library) (name : Text) : List Text :=
  if Path.isAbsolute name then [name] else l.path.map fun d => Path.join d name

/-- The first place on the search path that holds the file. -/
def findFile (l : Library) (tree : FileTree) (name : Text) : Except Fault Text :=
  match (l.candidates name).find? fun path => (tree.file? path).isSome with
  | some path => .ok path
  | none => .error { cause := .fileNotFound name l.path }

/-- The file of this name, read if it was not asked for before. -/
def load (l : Library) (tree : FileTree) (name : Text) : Except Failure ProtocolFile × Library :=
  match l.cached name with
  | some f =>
    if f.valid then (.ok f, l)
    else (.error (.fault { cause := .fileInvalid name, file := f.file }), l)
  | none =>
    match l.findFile tree name with
    | .error fault => (.error (.fault fault), l)
    | .ok path =>
      let (f, failure) := ProtocolFile.read (sourceText ((tree.file? path).getD [])) (some path)
      let l := { l with files := l.files ++ [(name, f)] }
      match failure with
      | none => (.ok f, l)
      | some e => (.error (e.mapFault (·.addNote none (.inInvalidFile name))), l)

def free (l : Library) : Library := { l with files := [] }

def description (l : Library) : Text :=
  "ProtocolRegistry(path=[".toList ++ Text.joinWith ", ".toList (l.path.map Text.inQuotes) ++
    "], files=".toList ++ (toString l.files.length).toList ++ [')']

end Library
end DeviceProtocol
