import DeviceProtocol.Compile.Variables
import DeviceProtocol.Instruction.Wire
set_option autoImplicit false

namespace DeviceProtocol

structure Settings where
  lockTimeout : Int := 5000
  writeTimeout : Int := 100
  replyTimeout : Int := 1000
  readTimeout : Int := 100
  /-- The reply timeout if it is not set. -/
  pollPeriod : Option Int := none
  /-- How many bytes are read at most; zero is no limit. -/
  maxInput : Int := 0
  inTerminator : List Instruction := []
  outTerminator : List Instruction := []
  separator : List Instruction := []
  ignoreExtraInput : Bool := false
  deriving DecidableEq, Repr

namespace Settings

def polling (s : Settings) : Int := s.pollPeriod.getD s.replyTimeout

def numbers (s : Settings) : List Int :=
  [s.lockTimeout, s.writeTimeout, s.replyTimeout, s.readTimeout, s.polling, s.maxInput]

def numberFits (n : Int) : Bool := 0 ≤ n && n ≤ maxNumber

def numberBytes (s : Settings) : Bytes := s.numbers.flatMap fun n => Wire.littleEndian 4 n.toNat

def packNumbers (s : Settings) : Except PackFault Bytes :=
  if s.numbers.all numberFits then .ok s.numberBytes else .error .tooLarge

def strings (s : Settings) : List (List Instruction) :=
  [s.inTerminator, s.outTerminator, s.separator]

def extraInputChoices : List Text := ["error".toList, "ignore".toList]

def quoted (is : List Instruction) : Text := '"' :: Instruction.printString .plain is ++ ['"']

def describe (s : Settings) : List (String × Text) :=
  [("lockTimeout", (toString s.lockTimeout).toList),
   ("writeTimeout", (toString s.writeTimeout).toList),
   ("replyTimeout", (toString s.replyTimeout).toList),
   ("readTimeout", (toString s.readTimeout).toList),
   ("pollPeriod", (toString s.polling).toList),
   ("maxInput", (toString s.maxInput).toList),
   ("inTerminator", quoted s.inTerminator),
   ("outTerminator", quoted s.outTerminator),
   ("separator", quoted s.separator),
   ("extraInput", (if s.ignoreExtraInput then "ignore" else "error").toList)]

end Settings

namespace Compiler

/-- The number a variable stands for, or the default. -/
def numberSetting (p : Protocol) (name : String) (default : Int) : Traced Int := do
  match (← p.numberVariable name.toList maxNumber) with
  | some n => return n
  | none => return default

def stringSetting (k : Compiler) (p : Protocol) (name : String) (default : List Instruction) :
    Traced (List Instruction) := do
  return (← k.stringVariable p name.toList).getD default

/-- Reads the settings of an instance. One terminator for both directions gives way to one for its own
direction. -/
def readSettings (k : Compiler) (p : Protocol) : Traced Settings := do
  let lock ← numberSetting p "locktimeout" 5000
  let write ← numberSetting p "writetimeout" 100
  let reply ← numberSetting p "replytimeout" 1000
  let read ← numberSetting p "readtimeout" 100
  let poll ← p.numberVariable "pollperiod".toList maxNumber
  let maxInput ← numberSetting p "maxinput" 0
  let terminator ← k.stringSetting p "terminator" []
  let inTerminator ← k.stringSetting p "interminator" terminator
  let outTerminator ← k.stringSetting p "outterminator" terminator
  let separator ← k.stringSetting p "separator" []
  let extraInput ← p.choiceVariable "extrainput".toList Settings.extraInputChoices
  return {
    lockTimeout := lock
    writeTimeout := write
    replyTimeout := reply
    readTimeout := read
    pollPeriod := poll.map Int.ofNat
    maxInput := maxInput
    inTerminator := inTerminator
    outTerminator := outTerminator
    separator := separator
    ignoreExtraInput := extraInput == some 1 }

end Compiler
end DeviceProtocol
