import DeviceProtocol.Compile.Source
import DeviceProtocol.Program.Listing
import DeviceProtocol.Program.Wire
import DeviceProtocol.Settings
set_option autoImplicit false

namespace DeviceProtocol

structure CompiledProtocol where
  name : Text
  settings : Settings
  commands : Program
  handlers : List (Text × Program)
  deriving DecidableEq, Repr

namespace CompiledProtocol

def handlerBytes (h : Text × Program) : Bytes := Wire.zeroTerminated h.1 ++ h.2.bytes

/-- The numeric settings, the three strings of the settings, the program, and each handler behind its
name; a zero byte ends the handlers. -/
def bytes (c : CompiledProtocol) : Bytes :=
  c.settings.numberBytes ++ c.settings.strings.flatMap Instruction.stringBytes ++
    c.commands.bytes ++ c.handlers.flatMap handlerBytes ++ [0]

def fits (c : CompiledProtocol) : Bool :=
  c.settings.numbers.all Settings.numberFits && c.settings.strings.all (·.all Instruction.fits) &&
    c.commands.fits && c.handlers.all fun h => h.2.fits

/-- The compiled protocol in the stream, unless a number or an address is too large for it. -/
def pack (c : CompiledProtocol) : Except PackFault Bytes :=
  if c.fits then .ok c.bytes else .error .tooLarge

def listing (c : CompiledProtocol) : Text :=
  Text.joinWith ['\n'] (
    ["protocol ".toList ++ c.name ++ [':'], c.commands.listing] ++
      c.handlers.flatMap fun h => ["handler ".toList ++ h.1 ++ [':'], h.2.listing])

end CompiledProtocol

namespace Compiler

def compileProtocol (k : Compiler) (p : Protocol) : Traced CompiledProtocol := do
  let settings ← k.readSettings p
  let handlers ← k.handlerPrograms p
  let program ← k.ownProgram p
  return ⟨p.name, settings, program.getD .empty, handlers⟩

end Compiler
end DeviceProtocol
