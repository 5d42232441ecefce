import DeviceProtocol.Compile.Commands
set_option autoImplicit false

/-!
The variables, handlers and commands of a protocol as its host asks for them. A variable or a handler
that is not defined has no value; that is no fault.
-/
namespace DeviceProtocol

/-- The handlers the device engine knows. -/
def knownHandlers : List Text :=
  ["@init".toList, "@mismatch".toList, "@writetimeout".toList, "@replytimeout".toList,
   "@readtimeout".toList, "@connect".toList]

namespace Protocol

/-- The number a variable stands for, as the whole of its value. -/
def numberVariable (p : Protocol) (name : Text) (limit : Int) : Traced (Option Nat) := do
  match (← p.consult name) with
  | none => return none
  | some b =>
    let (n, a) ← (p.compileNumber (Arguments.ofTokens b.value) limit).mapFault fun f =>
      (f.locate (some b.line) p.file).addNote (some b.line) (.inVariable name)
    let a := a.skipBlanks
    if a.atEnd then return some n
    else Traced.fault (.textAfterVariable name n (Token.render a.rest)) b.line p.file

/-- The number of the first choice that the text of a variable starts with. -/
def choiceVariable (p : Protocol) (name : Text) (choices : List Text) : Traced (Option Nat) := do
  match (← p.consult name) with
  | none => return none
  | some b =>
    let text := (b.value.filter fun t => !t.isBlank).flatMap Token.text
    match choices.findIdx? fun c => c.isPrefixOf text with
    | some i => return some i
    | none => Traced.fault (.choiceExpected text choices name) b.line p.file

end Protocol

namespace Compiler

def stringVariable (k : Compiler) (p : Protocol) (name : Text) :
    Traced (Option (List Instruction)) := do
  match (← p.consult name) with
  | none => return none
  | some b =>
    let is ← ({ k with fields := none }.compileString p .plain b.value).mapFault fun f =>
      (f.locate (some b.line) p.file).addNote (some b.line) (.inStringVariable name)
    return some is

/-- The program of a handler. An empty handler has none. -/
def handlerProgram (k : Compiler) (p : Protocol) (name : Text) : Traced (Option Program) := do
  match (← p.consult name) with
  | none => return none
  | some b =>
    if b.value.isEmpty then return none
    else do
      let program ← (k.compileCommands p b.value).mapFault fun f =>
        ((f.locate (some b.line) p.file).addNote (some b.line) (.inHandler name)).addNote
          (some p.commands.line) (.usedByProtocol p.name)
      return some program

def ownProgram (k : Compiler) (p : Protocol) : Traced (Option Program) := do
  Traced.use .commands
  if p.commands.value.isEmpty then return none
  else do
    let program ← (k.compileCommands p p.commands.value).mapFault fun f =>
      (f.locate (some p.commands.line) p.file).addNote (some p.commands.line) (.inProtocol p.name)
    return some program

def handlerPrograms (k : Compiler) (p : Protocol) : Traced (List (Text × Program)) :=
  Traced.flatMap (fun name => do
    match (← k.handlerProgram p name) with
    | some program => return [(name, program)]
    | none => return []) knownHandlers

end Compiler
end DeviceProtocol
