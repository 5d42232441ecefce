import DeviceProtocol.Demonstration
set_option autoImplicit false

namespace DeviceProtocol

def Demonstration.readTree : IO FileTree := do
  let path := Path.join directory file
  try
    let content ← IO.FS.readBinFile path.str
    return .ofFiles [(path, some content.toList)]
  catch _ => return {}

end DeviceProtocol

open DeviceProtocol in
def main : IO UInt32 := do
  match Demonstration.run (← Demonstration.readTree) Demonstration.defaultProtocols with
  | .ok (code, output) =>
    IO.print output
    return code.toUInt32
  | .error _ => return 1
