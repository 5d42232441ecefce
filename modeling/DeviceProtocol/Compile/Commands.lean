import DeviceProtocol.Compile.Strings
import DeviceProtocol.Program
set_option autoImplicit false

namespace DeviceProtocol

def maxNumber : Int := 0xFFFFFFFF

def allEvents : UInt32 := 0xFFFFFFFF

def stringCommand? (name : Text) : Option (OpCode × Mode) :=
  if name = "out".toList then some (.output, .print)
  else if name = "in".toList then some (.input, .scan)
  else if name = "exec".toList then some (.exec, .print)
  else none

def numberCommand? (name : Text) : Option OpCode :=
  if name = "wait".toList then some .wait
  else if name = "connect".toList then some .connect
  else none

/-- A command word and the tokens up to the end of the command, and so on. -/
def commandSegments (ts : List Token) : List (Token × List Token) :=
  match ts with
  | [] => []
  | t :: rest =>
    (t, rest.takeWhile fun u => u.kind != .terminator) ::
      commandSegments ((rest.dropWhile fun u => u.kind != .terminator).drop 1)
termination_by ts.length
decreasing_by
  have := (List.dropWhile_sublist (l := rest) fun u => u.kind != .terminator).length_le
  simp only [List.length_drop, List.length_cons]
  omega

namespace Protocol

def commandNumber (p : Protocol) (a : Arguments) : Traced (UInt32 × Arguments) := do
  let (n, a) ← p.compileNumber a maxNumber
  let word ← Traced.ofExcept ((Operand.word n).mapError fun _ => .crash .operandRange)
  return (word, a)

def eventMask (p : Protocol) (a : Arguments) : Traced (UInt32 × Arguments) :=
  match a.expect ['('] with
  | (false, a) => return (allEvents, a)
  | (true, a) => do
    let a := a.skipBlanks
    let (mask, b) ← p.commandNumber a
    match b.expect [')'] with
    | (true, b) => return (mask, b)
    | (false, _) => Traced.fault .maskUnclosed a.line p.file

def eventOperands (p : Protocol) (a : Arguments) : Traced (List Operand × Arguments) := do
  let (mask, a) ← p.eventMask a
  let a := a.skipBlanks
  if a.atEnd then return ([.number mask, .number 0], a)
  else do
    let (timeout, a) ← p.commandNumber a
    return ([.number mask, .number timeout], a)

end Protocol

namespace Compiler

def compileNamed (k : Compiler) (p : Protocol) (name : Text) (line : Int) (a : Arguments) :
    Traced (Command × Arguments) :=
  match stringCommand? name with
  | some (op, mode) => do
    let is ← k.compileString p mode a.rest
    return (⟨op, line, [.string is]⟩, a.finish)
  | none =>
    match numberCommand? name with
    | some op => do
      let (n, a) ← p.commandNumber a
      return (⟨op, line, [.number n]⟩, a)
    | none =>
      if name = "event".toList then do
        let (operands, a) ← p.eventOperands a
        return (⟨.event, line, operands⟩, a)
      else if name = "disconnect".toList then return (⟨.disconnect, line, []⟩, a)
      else Traced.fault (.commandUnknown name) line p.file

/-- Compiles a command. It has to take all of its arguments. -/
def compileCommand (k : Compiler) (p : Protocol) (segment : Token × List Token) :
    Traced Command := do
  let (word, arguments) := segment
  let (command, a) ← (k.compileNamed p word.text word.line (Arguments.ofTokens arguments).skipBlanks).mapFault
    fun f => (f.locate (some word.line) p.file).addNote (some word.line) (.inCommand word.text)
  let a := a.skipBlanks
  if a.atEnd then return command
  else Traced.fault (.textAfterCommand word.text (Token.render a.rest)) word.line p.file

def compileCommands (k : Compiler) (p : Protocol) (ts : List Token) : Traced Program :=
  match k.fields with
  | none => Traced.fault .noCommandSet p.line p.file
  | some _ => do
    let commands ← Traced.forAll (k.compileCommand p) (commandSegments ts)
    return ⟨commands⟩

end Compiler
end DeviceProtocol
