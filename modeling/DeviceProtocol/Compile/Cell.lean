import DeviceProtocol.Instruction
import DeviceProtocol.Text.Integer
import DeviceProtocol.Text.Utf8
set_option autoImplicit false

/-!
Cells: the parts of a string before its formats are compiled. A character as it was written may belong to
a format; a byte that came out of an escape or a number may not.
-/
namespace DeviceProtocol

inductive Cell where
  | char (c : Char)
  | byte (b : UInt8)
  | control (code : Sentinel)
  | field (f : Field)
  deriving DecidableEq, Repr

namespace Cell

def leadingChars : List Cell → Text
  | char c :: cells => c :: leadingChars cells
  | _ => []

def toInstruction : Cell → Instruction
  | char c => .literal (Text.utf8 [c])
  | byte b => .literal [b]
  | control code => .control code
  | field f => .field f

def toInstructions (cells : List Cell) : List Instruction :=
  Instruction.merge (cells.map toInstruction)

def fault {α : Type} (cause : Cause) : Except Failure α := .error (.fault { cause := cause })

def letterEscape? : Char → Option UInt8
  | 'a' => some 0x07
  | 'b' => some 0x08
  | 't' => some 0x09
  | 'n' => some 0x0A
  | 'r' => some 0x0D
  | 'e' => some 0x1B
  | _ => none

def ofValue (value : Nat) : Except Failure Cell :=
  if value < 0x100 then .ok (byte (UInt8.ofNat value)) else .error (.crash .byteRange)

theorem ofValue_of_lt (value : Nat) (small : value < 0x100) : ofValue value = .ok (byte (UInt8.ofNat value)) :=
  if_pos small

theorem ofValue_eq_ok {value : Nat} {cell : Cell} (h : ofValue value = .ok cell) : cell = byte (UInt8.ofNat value) := by
  unfold ofValue at h
  split at h
  · exact (Except.ok.inj h).symm
  · cases h

/-- The cells of an escape with a number, and its length. -/
def ofNumber (value length : Nat) : Except Failure (List Cell × Nat) := (ofValue value).map fun cell => ([cell], length)

theorem ofNumber_of_lt (value length : Nat) (small : value < 0x100) :
    ofNumber value length = .ok ([byte (UInt8.ofNat value)], length) := by
  rw [ofNumber, ofValue_of_lt value small]
  rfl

theorem ofNumber_eq_ok {value length n : Nat} {cells : List Cell} (h : ofNumber value length = .ok (cells, n)) :
    cells = [byte (UInt8.ofNat value)] ∧ n = length := by
  unfold ofNumber at h
  cases hv : ofValue value with
  | error e =>
    rw [hv] at h
    cases h
  | ok cell =>
    rw [hv] at h
    cases h
    exact ⟨by rw [ofValue_eq_ok hv], rfl⟩

/-- The cells of an escape, `text` being what follows the backslash, and how many characters it takes. -/
def escape (text : Text) : Except Failure (List Cell × Nat) :=
  match text with
  | [] => fault .backslashAtEnd
  | '?' :: _ => .ok ([control .skip], 1)
  | '_' :: _ => .ok ([control .whitespace], 1)
  | '0' :: _ =>
    let digits := (text.take 4).takeWhile isOctalDigit
    let value := digitsValue 8 digits
    if 0xFF < value then fault (.octalOutOfRange value digits)
    else ofNumber value digits.length
  | 'x' :: cs =>
    let digits := (cs.take 2).takeWhile isHexDigit
    if digits.isEmpty then fault (.hexDigitExpected text)
    else ofNumber (digitsValue 16 digits) (digits.length + 1)
  | c :: _ =>
    match letterEscape? c with
    | some b => .ok ([byte b], 1)
    | none =>
      if isDecimalDigit c then
        let digits := (text.take 3).takeWhile isDecimalDigit
        let value := digitsValue 10 digits
        if 0xFF < value then fault (.decimalOutOfRange value digits)
        else ofNumber value digits.length
      else if isDigit c then .error (.crash .undecimalEscape)
      else .ok ((Text.utf8 [c]).map byte, 1)

/-- A character whose low seven bits are those of a control character may not stand in a string. -/
def isForbidden (c : Char) : Bool := c.toNat % 0x80 < 0x20

/-- The cells of the text between quotes. -/
def ofQuoted (text : Text) : Except Failure (List Cell) :=
  match text with
  | [] => .ok []
  | c :: cs =>
    if isForbidden c then fault (.unexpectedByte c.toNat)
    else if c = '\\' then do
      let (front, length) ← escape cs
      let back ← ofQuoted (cs.drop length)
      return front ++ back
    else do
      let back ← ofQuoted cs
      return char c :: back
termination_by text.length
decreasing_by
  · simp only [List.length_drop, List.length_cons]
    omega
  · simp

end Cell
end DeviceProtocol
