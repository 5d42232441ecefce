import DeviceProtocol.Arguments
import DeviceProtocol.Protocol
import DeviceProtocol.Text.Integer
set_option autoImplicit false

namespace DeviceProtocol

def startsWithDigit (t : Text) : Bool := t.head?.any isDigit

def Token.isNumeric (t : Token) : Bool := t.kind == .word && startsWithDigit t.text

namespace Protocol

/-- The text of the number that tokens start with, and how many of them it takes. References inside the
value of a reference count by their names. -/
def numberText (p : Protocol) : List Token → Traced (Text × Nat)
  | [] => return ([], 0)
  | t :: ts =>
    if t.kind = .reference then do
      let value ← p.resolve t
      let (text, count) ← p.numberText ts
      return ((value.filter fun v => !v.isBlank).flatMap Token.text ++ text, count + 1)
    else if t.isNumeric then do
      let (text, count) ← p.numberText ts
      return (t.text ++ text, count + 1)
    else return ([], 0)

def numberValue (text : Text) (limit : Int) : Except Failure Nat := do
  let fault (cause : Cause) : Except Failure Nat := .error (.fault { cause := cause })
  match (← text.integer) with
  | none => fault (.numberExpected text)
  | some (value, length) =>
    if value < 0 then fault (.numberExpected text)
    else if length ≠ text.length then fault (.textAfterNumber text)
    else if limit < value then fault (.numberOutOfRange text limit)
    else return value.toNat

/-- Takes a number from the arguments. A fault in it is at the line where it starts. -/
def compileNumber (p : Protocol) (a : Arguments) (limit : Int) : Traced (Nat × Arguments) := do
  let (text, count) ← p.numberText a.rest
  let n ← Traced.located a.line p.file (numberValue text limit)
  return (n, a.advance count)

end Protocol
end DeviceProtocol
