import DeviceProtocol.Compile.Source
import DeviceProtocol.FileTree
set_option autoImplicit false

namespace DeviceProtocol

/-- Why a file could not be used. -/
inductive FileFailure where
  | missing
  | directory
  | notDirectory
  | notText
  | failure (e : Failure)
  deriving DecidableEq, Repr

namespace FileTree

def content (tree : FileTree) (path : Text) : Except FileFailure Bytes :=
  match tree.target path with
  | .file content => .ok content
  | .directory => .error .directory
  | .missing => .error .missing
  | .notDirectory => .error .notDirectory

end FileTree

def sourceText (content : Bytes) : Text := (Text.ofUtf8Lenient content).unifyNewlines

def Compiler.compileFile (k : Compiler) (tree : FileTree) (path instantiation : Text) :
    Except FileFailure Program := do
  let content ← tree.content path
  match Text.ofUtf8? content with
  | none => throw .notText
  | some text =>
    (k.compileSource text.unifyNewlines instantiation (some path)).mapError .failure

/-- Reads a protocol file, which goes by its path without idle parts. -/
def ProtocolFile.load (tree : FileTree) (path : Text) : Except FileFailure ProtocolFile := do
  let path := Path.normalize path
  let content ← tree.content path
  (ProtocolFile.ofSource (sourceText content) (some path)).mapError .failure

end DeviceProtocol
