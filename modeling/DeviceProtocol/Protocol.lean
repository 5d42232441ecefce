import DeviceProtocol.Traced
import DeviceProtocol.Quotation
import DeviceProtocol.Text.Case
set_option autoImplicit false

namespace DeviceProtocol

structure Binding where
  name : Text
  value : List Token := []
  line : Int := 0
  used : Bool := false
  deriving DecidableEq, Repr

/-- The name of a handler starts with an at sign. -/
def isHandlerName (name : Text) : Bool := name.head? == some '@'

namespace Binding

def isHandler (b : Binding) : Bool := isHandlerName b.name

end Binding

def maxParameters : Nat := 9

structure Protocol where
  file : Option Text := none
  name : Text := []
  line : Int := 0
  /-- The commands. This binding has no name and is not looked up. -/
  commands : Binding := { name := [] }
  bindings : List Binding := []
  /-- What `$0` stands for. -/
  self : Option Text := none
  /-- What `$1` to `$9` stand for. -/
  arguments : List Text := []
  /-- The names of `$1` to `$9`, as far as they have any. -/
  parameters : List Text := []
  deriving DecidableEq, Repr

namespace Protocol

def slot (p : Protocol) : Nat → Option Text
  | 0 => p.self
  | i + 1 => if i < maxParameters then p.arguments[i]? else none

theorem slot_of_lt (p : Protocol) (i : Nat) (outside : maxParameters < i) : p.slot i = none := by
  cases i with
  | zero => cases outside
  | succ i => exact if_neg (by omega)

def slots (p : Protocol) : List (Option Text) := (List.range (maxParameters + 1)).map p.slot

/-- A copy under another name. Line zero keeps the line. Arguments beyond the ninth are dropped. -/
def copy (p : Protocol) (name : Text) (line : Int) (arguments : List Text) : Protocol :=
  { p with
    name := name
    line := if line = 0 then p.line else line
    commands := if line = 0 then p.commands else { p.commands with line := line }
    self := some name
    arguments := arguments.take maxParameters }

/-- The binding of this name, in any case, or else the first one whose name starts with it. -/
def lookup (p : Protocol) (name : Text) : Option Binding :=
  let key := Text.lower name
  (p.bindings.find? fun b => b.name == key).or
    (p.bindings.find? fun b => key.isPrefixOf b.name)

def declare (p : Protocol) (name : Text) (line : Int) : Protocol :=
  let key := Text.lower name
  if p.bindings.any fun b => b.name == key then
    { p with bindings := p.bindings.map fun b => if b.name = key then { b with line := line } else b }
  else { p with bindings := p.bindings ++ [{ name := key, line := line }] }

/-- Binds a name to a value, in the place of an earlier one if there was one. -/
def assign (p : Protocol) (name : Text) (line : Int) (value : List Token) : Protocol :=
  let q := p.declare name line
  let key := Text.lower name
  { q with bindings := q.bindings.map fun b => if b.name = key then { b with value := value } else b }

def addCommands (p : Protocol) (ts : List Token) : Protocol :=
  { p with commands := { p.commands with value := p.commands.value ++ ts } }

def touchBy (uses : List Use) (b : Binding) : Binding :=
  { b with used := b.used || uses.contains (.binding b.name) }

def touch (p : Protocol) (uses : List Use) : Protocol :=
  { p with
    commands := { p.commands with used := p.commands.used || uses.contains .commands }
    bindings := p.bindings.map (touchBy uses) }

def variableBindings (p : Protocol) : List Binding := p.bindings.filter fun b => !b.isHandler

def handlerBindings (p : Protocol) : List Binding := p.bindings.filter fun b => b.isHandler

/-- The number of the parameter that a reference names, by its digit or by its name. -/
def parameterIndex (p : Protocol) (name : Text) : Except Failure (Option Nat) :=
  match name with
  | [c] =>
    if isDigit c then
      match decimalValue? c with
      | some n => .ok (some n)
      | none => .error (.crash .undecimalNumber)
    else .ok (p.parameters.idxOf? name |>.map (· + 1))
  | _ => .ok (p.parameters.idxOf? name |>.map (· + 1))

def consult (p : Protocol) (name : Text) : Traced (Option Binding) :=
  match p.lookup name with
  | some b => do
    Traced.use (.binding b.name)
    return some b
  | none => return none

/-- The tokens a reference stands for. Inside quotes they are such as may stand there. -/
def resolve (p : Protocol) (t : Token) : Traced (List Token) := do
  match (← Traced.ofExcept (p.parameterIndex t.text)) with
  | some i =>
    if maxParameters < i then Traced.fail (.crash .parameterRange)
    else match p.slot i with
      | none => Traced.fault (.argumentMissing t.text) t.line p.file
      | some value =>
        if t.isQuoted then return [⟨.string, escapeQuotes value, t.line, some .double⟩]
        else return [⟨.word, value, t.line, none⟩]
  | none =>
    match (← p.consult t.text) with
    | none => Traced.fault (.variableUndefined t.text) t.line p.file
    | some b => return if t.isQuoted then quoteTokens b.value b.line else b.value

def unusedVariable (p : Protocol) (b : Binding) : String :=
  s!"Unused variable {b.name.str} in protocol file '{(Text.orNone p.file).str}' line {b.line}"

def checkBindings (p : Protocol) : List Binding → List String × Option Fault
  | [] => ([], none)
  | b :: bs =>
    if b.used then p.checkBindings bs
    else if b.isHandler then
      ([], some { cause := .handlerUnknown b.name, line := some b.line, file := p.file })
    else
      let (messages, fault) := p.checkBindings bs
      (p.unusedVariable b :: messages, fault)

/-- Looks for bindings that nothing consulted: a variable is worth a message, a handler is a fault, which
ends the search. -/
def checkUnused (p : Protocol) : List String × Option Fault := p.checkBindings p.bindings

def reportBody (p : Protocol) : List Text :=
  let variableLines := p.variableBindings.map fun b =>
    "    ".toList ++ b.name ++ " = ".toList ++ Token.render b.value ++ [';']
  let handlerLines := p.handlerBindings.map fun b =>
    "    ".toList ++ b.name ++ " \x7b".toList ++ Token.render b.value ++ ['\x7d']
  ["    Variables:".toList] ++ variableLines ++ ["    Handlers:".toList] ++ handlerLines ++
    ["    Commands:".toList,
     "     \x7b ".toList ++ Token.render p.commands.value ++ " \x7d".toList]

def report (p : Protocol) : Text :=
  let title := if p.name.isEmpty then [] else ["  Protocol ".toList ++ p.name]
  Text.joinWith ['\n'] (title ++ p.reportBody)

def description (p : Protocol) : Text :=
  "Protocol(".toList ++ p.name.inQuotes ++ ", bindings=".toList ++
    (toString (p.bindings.length + 1)).toList ++ ", line=".toList ++ (toString p.line).toList ++ [')']

end Protocol
end DeviceProtocol
