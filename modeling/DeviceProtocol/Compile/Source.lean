import DeviceProtocol.Compile.Variables
import DeviceProtocol.ProtocolFile.Read
set_option autoImplicit false

namespace DeviceProtocol

/-- Settles the faults of unused handlers once everything has been consulted. -/
def Protocol.requireUsed (p : Protocol) (uses : List Use) : Except Failure Unit :=
  match (p.touch uses).checkUnused.2 with
  | some fault => .error (.fault fault)
  | none => .ok ()

namespace Compiler

/-- The program of an instance. Its handlers are compiled too, so that faults in them are found. -/
def compileInstance (k : Compiler) (p : Protocol) : Traced Program := do
  let _ ← k.handlerPrograms p
  let program ← k.ownProgram p
  return program.getD .empty

def compileSource (k : Compiler) (source instantiation : Text) (file : Option Text) :
    Except Failure Program := do
  let f ← ProtocolFile.ofSource source file
  let p ← (f.instantiate instantiation).mapError .fault
  let compiled := k.compileInstance p
  let program ← compiled.result
  p.requireUsed compiled.uses
  return program

end Compiler
end DeviceProtocol
