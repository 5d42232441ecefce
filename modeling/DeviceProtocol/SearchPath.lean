import DeviceProtocol.Text.Basic
set_option autoImplicit false

namespace DeviceProtocol

namespace SearchPath

/-- No directories at all means the working directory. -/
def ofList (directories : List Text) : List Text :=
  if directories.isEmpty then [['.']] else directories

/-- Directories are divided by colons or semicolons. Empty ones do not count. -/
def ofText (path : Text) : List Text :=
  ofList ((Text.splitAt (fun c => c == ';' || c == ':') path).filter fun d => !d.isEmpty)

def ofText? : Option Text → List Text
  | none => ofList []
  | some path => ofText path

end SearchPath
end DeviceProtocol
