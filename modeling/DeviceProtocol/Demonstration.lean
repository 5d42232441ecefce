import DeviceProtocol.Host
set_option autoImplicit false

namespace DeviceProtocol

namespace Demonstration

def directory : Text := "protocols".toList

def file : Text := "demo.proto".toList

def defaultProtocols : List Text :=
  ["read_voltage(1)".toList, "set_voltage(2,V)".toList, "state".toList, "reset".toList]

def lines (index : Nat) (c : CompiledProtocol) (name : Text) : List String :=
  [s!"[{index}] Compiled {name.str}"] ++
    (c.settings.describe.map fun (key, value) => s!"      {key} = {value.str}") ++
    [c.listing.str, s!"      {c.bytes.length} bytes serialized", ""]

/-- Compiles protocols until one of them fails. Gives the exit code and the lines to print; a failure that
is no fault of the file has neither. -/
def compileAll (tree : FileTree) (h : Host) (index : Nat) :
    List Text → Except Failure (Nat × List String)
  | [] => .ok (0, ["SUCCESS! All protocols compiled."])
  | name :: names =>
    let o := h.compile tree file name
    match o.result with
    | .error (.fault f) => .ok (1, [s!"[{index}] {name.str}: FAILED", f.text])
    | .error e => .error e
    | .ok c => do
      let (code, rest) ← compileAll tree o.host (index + 1) names
      return (code, lines index c name ++ rest)

def run (tree : FileTree) (protocols : List Text) : Except Failure (Nat × String) := do
  let host : Host := { library := { path := SearchPath.ofText directory } }
  let path := Text.joinWith ", ".toList (host.library.path.map Text.inQuotes)
  let title := ["=== StreamProto Demo ===", "", s!"[1] Created context, search path [{path.str}]"]
  let (code, rest) ← compileAll tree host 2 protocols
  return (code, String.join ((title ++ rest).map (· ++ "\n")))

end Demonstration
end DeviceProtocol
