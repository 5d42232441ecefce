import DeviceProtocol.Instantiation
import DeviceProtocol.Protocol
set_option autoImplicit false

namespace DeviceProtocol

structure ProtocolFile where
  file : Option Text := none
  /-- The bindings outside of protocols, held by a protocol without commands. -/
  globals : Protocol := {}
  protocols : List Protocol := []
  valid : Bool := false
  deriving DecidableEq, Repr

namespace ProtocolFile

def empty (file : Option Text) : ProtocolFile := { file := file, globals := { file := file } }

/-- The protocol of this name, in any case, or else the first one whose name starts with it. -/
def findIn (protocols : List Protocol) (name : Text) : Option Protocol :=
  let key := Text.lower name
  (protocols.find? fun p => p.name == key).or (protocols.find? fun p => key.isPrefixOf p.name)

def find (f : ProtocolFile) (name : Text) : Option Protocol := findIn f.protocols name

def template? (f : ProtocolFile) (name : Text) : Option Protocol :=
  if name.isEmpty then none else f.find name

def instantiate (f : ProtocolFile) (text : Text) : Except Fault Protocol :=
  match Instantiation.ofText text with
  | .error cause => .error { cause := cause, file := f.file }
  | .ok i =>
    match f.template? i.name with
    | none => .error { cause := .protocolNotFound i.name f.file }
    | some p => .ok (p.copy text 0 i.arguments)

/-- What is worth a warning about an instantiation: arguments that have no place. -/
def instantiationWarning? (text : Text) : Option String :=
  match Instantiation.ofText text with
  | .ok i =>
    if maxParameters < i.arguments.length then
      some s!"Protocol {text.str}: ignoring arguments after ${maxParameters}"
    else none
  | .error _ => none

def report (f : ProtocolFile) : Text :=
  Text.joinWith ['\n'] (
    ["Protocol file '".toList ++ Text.orNone f.file ++ ['\''], "  Global settings:".toList,
     f.globals.report, "  Protocols:".toList] ++ f.protocols.map Protocol.report)

def description (f : ProtocolFile) : Text :=
  "ProtocolFile(".toList ++ Text.inQuotesOrNone f.file ++ ", protocols=".toList ++
    (toString f.protocols.length).toList ++ ", valid=".toList ++
    (if f.valid then "True" else "False").toList ++ [')']

end ProtocolFile
end DeviceProtocol
