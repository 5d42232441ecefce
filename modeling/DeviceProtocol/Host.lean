import DeviceProtocol.CompiledProtocol
import DeviceProtocol.Library
set_option autoImplicit false

namespace DeviceProtocol

structure Host where
  compiler : Compiler := {}
  library : Library := {}

/-- How a request ends. -/
structure Outcome (α : Type) where
  result : Except Failure α
  host : Host
  events : List LogEvent := []

namespace Outcome

/-- Adds the entries of a fault to what is told. -/
def reported {α : Type} (o : Outcome α) : Outcome α :=
  match o.result with
  | .ok _ => o
  | .error e => { o with events := o.events ++ LogEvent.ofFailure e }

end Outcome

namespace Host

def load (h : Host) (tree : FileTree) (file : Text) : Outcome ProtocolFile :=
  let (result, library) := h.library.load tree file
  { result := result, host := { h with library := library } }

def fetch (h : Host) (tree : FileTree) (file instantiation : Text) : Outcome Protocol :=
  let o := h.load tree file
  match o.result with
  | .error e => { result := .error e, host := o.host }
  | .ok f =>
    match f.instantiate instantiation with
    | .error fault => { result := .error (.fault fault), host := o.host }
    | .ok p =>
      { result := .ok p
        host := o.host
        events := (ProtocolFile.instantiationWarning? instantiation).toList.map .warning }

def instantiate (h : Host) (tree : FileTree) (file instantiation : Text) : Outcome Protocol :=
  (h.fetch tree file instantiation).reported

/-- Compiles an instance and then looks for bindings it does not use. -/
def compileInstance (h : Host) (p : Protocol) : Outcome CompiledProtocol :=
  let compiled := h.compiler.compileProtocol p
  match compiled.result with
  | .error e => { result := .error e, host := h }
  | .ok c =>
    let (messages, fault) := (p.touch compiled.uses).checkUnused
    let result := match fault with
      | some f => .error (.fault f)
      | none => .ok c
    { result := result, host := h, events := messages.map .trace }

def compile (h : Host) (tree : FileTree) (file instantiation : Text) : Outcome CompiledProtocol :=
  let o := h.instantiate tree file instantiation
  match o.result with
  | .error e => { result := .error e, host := o.host, events := o.events }
  | .ok p =>
    let c := (o.host.compileInstance p).reported
    { c with events := o.events ++ c.events }

/-- The settings of a protocol of a file. Faults in the settings themselves are not reported. -/
def settings (h : Host) (tree : FileTree) (file instantiation : Text) : Outcome Settings :=
  let o := h.instantiate tree file instantiation
  match o.result with
  | .error e => { result := .error e, host := o.host, events := o.events }
  | .ok p =>
    { result := (h.compiler.readSettings p).result, host := o.host, events := o.events }

def free (h : Host) : Host := { h with library := h.library.free }

end Host
end DeviceProtocol
