import DeviceProtocol.Program
set_option autoImplicit false

namespace DeviceProtocol

def Operand.toText : Operand → Text
  | string is => '"' :: Instruction.printString .print is ++ ['"']
  | number n => (toString n.toNat).toList

namespace Command

def listing (index : Nat) (c : Command) : Text :=
  let operands := Text.joinWith [' '] (c.operands.map Operand.toText)
  let text := "  ".toList ++ Text.numeral 10 4 index ++ ": ".toList ++
    Text.padRight 12 ' ' c.opcode.name.toList ++ [' '] ++ operands
  let text := Text.stripRight text
  if c.line = 0 then text
  else Text.padRight 40 ' ' text ++ " ; line ".toList ++ (toString c.line).toList

end Command

def Program.listing (p : Program) : Text :=
  let lines := p.commands.zipIdx.map fun (c, index) => c.listing index
  let last := "  ".toList ++ Text.numeral 10 4 p.commands.length ++ ": END".toList
  Text.joinWith ['\n'] (lines ++ [last])

end DeviceProtocol
