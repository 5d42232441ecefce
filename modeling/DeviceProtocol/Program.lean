import DeviceProtocol.Instruction
set_option autoImplicit false

namespace DeviceProtocol

inductive OpCode where
  | stop
  | input
  | output
  | wait
  | event
  | exec
  | connect
  | disconnect
  deriving DecidableEq, Repr

inductive OperandKind where
  | string
  | number
  deriving DecidableEq, Repr

namespace OpCode

def code : OpCode → UInt8
  | stop => 0
  | input => 1
  | output => 2
  | wait => 3
  | event => 4
  | exec => 5
  | connect => 6
  | disconnect => 7

def all : List OpCode := [stop, input, output, wait, event, exec, connect, disconnect]

def ofCode? (b : UInt8) : Option OpCode := all.find? (·.code == b)

def name : OpCode → String
  | stop => "END"
  | input => "IN"
  | output => "OUT"
  | wait => "WAIT"
  | event => "EVENT"
  | exec => "EXEC"
  | connect => "CONNECT"
  | disconnect => "DISCONNECT"

def ofName? (s : String) : Option OpCode := all.find? (·.name == s)

def operands : OpCode → List OperandKind
  | stop | disconnect => []
  | input | output | exec => [.string]
  | wait | connect => [.number]
  | event => [.number, .number]

theorem ofCode?_code (op : OpCode) : ofCode? op.code = some op := by
  cases op <;> rfl

end OpCode

inductive Operand where
  | string (is : List Instruction)
  | number (n : UInt32)
  deriving DecidableEq, Repr

namespace Operand

def kind : Operand → OperandKind
  | string _ => .string
  | number _ => .number

def strings : Operand → List (List Instruction)
  | string is => [is]
  | number _ => []

end Operand

structure Command where
  opcode : OpCode
  line : Int := 0
  operands : List Operand := []
  deriving DecidableEq, Repr

structure Program where
  commands : List Command := []
  deriving DecidableEq, Repr

inductive EmitFault where
  | numberOutOfRange (n : Int)
  | noCommand
  deriving DecidableEq, Repr

def EmitFault.message : EmitFault → String
  | .numberOutOfRange n => s!"Operand {n} does not fit in u32"
  | .noCommand => "There is no command for the operand"

def Operand.word (n : Int) : Except EmitFault UInt32 :=
  if n < 0 || 0xFFFFFFFF < n then .error (.numberOutOfRange n) else .ok (UInt32.ofNat n.toNat)

namespace Program

def empty : Program := {}

def emit (p : Program) (opcode : OpCode) (line : Int) : Program :=
  ⟨p.commands ++ [{ opcode := opcode, line := line }]⟩

/-- Adds an operand to the last command. -/
def addOperand? (p : Program) (operand : Operand) : Option Program :=
  match p.commands.getLast? with
  | none => none
  | some c => some ⟨p.commands.dropLast ++ [{ c with operands := c.operands ++ [operand] }]⟩

def emitNumber (p : Program) (n : Int) : Except EmitFault Program := do
  let word ← Operand.word n
  match p.addOperand? (.number word) with
  | some q => return q
  | none => throw .noCommand

def emitString (p : Program) (is : List Instruction) : Except EmitFault Program :=
  match p.addOperand? (.string (Instruction.merge is)) with
  | some q => .ok q
  | none => .error .noCommand

def opcodes (p : Program) : List OpCode := p.commands.map (·.opcode)

def code (p : Program) : List (OpCode × List Operand) :=
  p.commands.map fun c => (c.opcode, c.operands)

def strings (p : Program) : List (List Instruction) :=
  p.commands.flatMap fun c => c.operands.flatMap Operand.strings

def literalPayload (p : Program) : Bytes := p.strings.flatMap Instruction.literalBytes

def append (p q : Program) : Program := ⟨p.commands ++ q.commands⟩

end Program
end DeviceProtocol
