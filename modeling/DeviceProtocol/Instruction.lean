import DeviceProtocol.Text.Basic
set_option autoImplicit false

namespace DeviceProtocol

/-- How a string is used. In a plain one a percent sign has no meaning of its own. -/
inductive Mode where
  | plain
  | scan
  | print
  deriving DecidableEq, Repr

/-- The bytes that have a meaning of their own in the stream. -/
inductive Sentinel where
  | stop
  | skip
  | whitespace
  | format
  | formatField
  | escape
  deriving DecidableEq, Repr

namespace Sentinel

def code : Sentinel → UInt8
  | stop => 0x00
  | skip => 0x01
  | whitespace => 0x02
  | format => 0x03
  | formatField => 0x04
  | escape => 0x1B

def all : List Sentinel := [stop, skip, whitespace, format, formatField, escape]

def ofCode? (b : UInt8) : Option Sentinel := all.find? (·.code == b)

theorem ofCode?_code (s : Sentinel) : ofCode? s.code = some s := by
  cases s <;> rfl

end Sentinel

inductive FormatType where
  | none
  | unsigned
  | signed
  | enum
  | double
  | string
  | pseudo
  deriving DecidableEq, Repr

namespace FormatType

def code : FormatType → Nat
  | none => 0
  | unsigned => 1
  | signed => 2
  | enum => 3
  | double => 4
  | string => 5
  | pseudo => 6

def all : List FormatType := [none, unsigned, signed, enum, double, string, pseudo]

def ofCode? (n : Nat) : Option FormatType := all.find? (·.code == n)

theorem ofCode?_code (t : FormatType) : ofCode? t.code = some t := by
  cases t <;> rfl

end FormatType

/-- A set of format flags, one bit each. Bits without a flag may be set in a stream that was read. -/
structure Flags where
  bits : Nat
  deriving DecidableEq, Repr

namespace Flags

def empty : Flags := ⟨0⟩

def skip : Flags := ⟨0x20⟩

/-- The flags of a number. A negative one stands for its low bits, as many as its absolute value has and
at least nine. -/
def ofInt (n : Int) : Flags :=
  if 0 ≤ n then ⟨n.toNat⟩ else ⟨max 0x200 (1 <<< (Nat.log2 n.natAbs + 1)) - n.natAbs⟩

def union (a b : Flags) : Flags := ⟨a.bits ||| b.bits⟩

def skips (f : Flags) : Bool := f.bits &&& skip.bits != 0

end Flags

structure Descriptor where
  type : FormatType
  conversion : Char
  flags : Flags := .empty
  width : Int := 0
  /-- Digits after the point; negative if none were given. -/
  precision : Int := -1
  infoLength : Nat := 0
  deriving DecidableEq, Repr

/-- A format, and the field of the host its value goes to or comes from if it names one. -/
structure Field where
  format : Descriptor
  source : Text
  info : Bytes := []
  name : Option Text := none
  address : Option Bytes := none
  deriving DecidableEq, Repr

inductive Instruction where
  | literal (data : Bytes)
  | control (code : Sentinel)
  | field (f : Field)
  deriving DecidableEq, Repr

namespace Instruction

/-- Adjacent literals become one. -/
def merge : List Instruction → List Instruction
  | [] => []
  | .literal a :: is =>
    match merge is with
    | .literal b :: js => .literal (a ++ b) :: js
    | js => .literal a :: js
  | i :: is => i :: merge is

def payload : Instruction → Bytes
  | .literal data => data
  | _ => []

def literalBytes (is : List Instruction) : Bytes := is.flatMap payload

/-- A byte of a string between double quotes. -/
def showByte (mode : Mode) (b : UInt8) : Text :=
  if b = 0x0D then "\\r".toList
  else if b = 0x0A then "\\n".toList
  else if b = 0x22 then "\\\"".toList
  else if b = 0x5C then "\\\\".toList
  else if b = 0x25 && mode != .plain then "%%".toList
  else if b.toNat % 0x80 < 0x20 || b.toNat % 0x80 = 0x7F then
    "\\x".toList ++ Text.numeral 16 2 b.toNat
  else [Char.ofNat b.toNat]

def toText (mode : Mode) : Instruction → Text
  | .literal data => data.flatMap (showByte mode)
  | .control .skip => "\\?".toList
  | .control _ => "\\_".toList
  | .field f =>
    match f.name with
    | some name => "%(".toList ++ name ++ [')'] ++ f.source
    | none => '%' :: f.source

def printString (mode : Mode) (is : List Instruction) : Text := is.flatMap (toText mode)

end Instruction
end DeviceProtocol
