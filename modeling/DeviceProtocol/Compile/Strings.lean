import DeviceProtocol.Compile.Cell
import DeviceProtocol.Compile.ControlCode
import DeviceProtocol.Compile.Number
import DeviceProtocol.Format
set_option autoImplicit false

/-!
Strings are compiled in two steps. First every token gives its cells: quoted text, byte values, names of
control characters, and references in the place of what they stand for. Then the formats are compiled,
line by line, so that a reference may give a part of a format and a format never goes beyond its line.
-/
namespace DeviceProtocol

abbrev FieldTable := List (Text × Bytes)

/-- What compilation depends on besides the protocol. Without a field table there are neither fields nor
commands. -/
structure Compiler where
  converter : Converter := Format.standard
  /-- How deeply references may nest. -/
  depthLimit : Int := 32
  fields : Option FieldTable := some []

/-- A token of a string, or a sign with the number behind it. -/
inductive StringItem where
  | token (t : Token)
  | signed (sign number : Token)
  deriving DecidableEq, Repr

namespace StringItem

def line : StringItem → Int
  | token t => t.line
  | signed sign _ => sign.line

end StringItem

def Token.isSign (t : Token) : Bool := t.isSpecial ['+', '-'] && !t.isBlank

/-- Joins signs with the numbers behind them. -/
def stringItems : List Token → List StringItem
  | [] => []
  | [t] => [.token t]
  | t :: u :: ts =>
    if t.isSign && u.isNumeric then .signed t u :: stringItems ts
    else .token t :: stringItems (u :: ts)

/-- Groups neighbours that stand on one line. -/
def lineRuns : List StringItem → List (List StringItem)
  | [] => []
  | i :: is =>
    match lineRuns is with
    | (j :: js) :: runs =>
      if i.line = j.line then (i :: j :: js) :: runs else [i] :: (j :: js) :: runs
    | runs => [i] :: runs

namespace Compiler

/-- The byte a number stands for. Negative ones are taken modulo 256. -/
def byteCell (text : Text) : Except Failure Cell := do
  match (← text.integer) with
  | none => if text.isEmpty then throw (.crash .missingNumber) else Cell.fault (.textAfterByte text)
  | some (value, length) =>
    if length ≠ text.length then Cell.fault (.textAfterByte text)
    else if 0xFF < value || value < -0x80 then Cell.fault (.byteOutOfRange text)
    else Cell.ofValue (value % 0x100).toNat

/-- The cells of a word. An empty one, such as an argument left out, gives none. -/
def wordCells (mode : Mode) (text : Text) : Except Failure (List Cell) :=
  if text.isEmpty then .ok []
  else if startsWithDigit text then (byteCell text).map ([·])
  else if isSkipWord (Text.lower text) then
    if mode = .scan then .ok [.control .skip] else Cell.fault (.inputOnly text)
  else match controlCode? (Text.lower text) with
    | some b => .ok [.byte b]
    | none => Cell.fault (.unexpectedInString text)

/-- The cells of an item. A reference gives those of its value, as long as the depth allows it. -/
def encode (k : Compiler) (p : Protocol) (mode : Mode) (depth : Nat) :
    StringItem → Traced (List Cell)
  | .signed sign number => Traced.located sign.line p.file ((byteCell (sign.text ++ number.text)).map ([·]))
  | .token t =>
    match t.kind with
    | .string => Traced.located t.line p.file (Cell.ofQuoted t.text)
    | .reference => do
      let value ← p.resolve t
      match depth with
      | 0 => Traced.fault (.nestedTooDeep k.depthLimit) t.line p.file
      | depth + 1 => Traced.flatMap (k.encode p mode depth) (stringItems value)
    | .terminator => return []
    | .word => Traced.located t.line p.file (wordCells mode t.text)
    | .special =>
      if t.isBlank then return []
      else Traced.fault (.unexpectedInString t.text) t.line p.file
    | .eof => Traced.fault (.unexpectedInString t.text) t.line p.file

/-- The field a format names and the format without the name, as they are written. -/
def splitField (k : Compiler) (source : Text) : Except Cause (Option (Text × Bytes) × Text) :=
  match source with
  | _ :: '(' :: cs =>
    match k.fields with
    | none => .error .fieldNotPossible
    | some table =>
      match Text.cutAt? ')' cs with
      | none => .error .fieldUnclosed
      | some (name, rest) =>
        match table.lookup name with
        | none => .error (.fieldNotFound name)
        | some address => .ok (some (name, address), '%' :: rest)
  | _ => .ok (none, source)

def illegal? (name : Option Text) (d : Descriptor) : Option Cause :=
  if d.type = .none then some (.formatWithoutType d.conversion)
  else match name with
    | none => none
    | some name =>
      if d.type = .pseudo then some (.fieldOfPseudoFormat name d.conversion)
      else if d.flags.skips then some .fieldSkipped
      else none

def closeInfo (info : Bytes) : Bytes :=
  match info.getLast? with
  | none | some 0 => info
  | some _ => info ++ [0]

/-- Compiles the format at the start of a text. Gives the field and how far the format reaches. -/
def compileFormat (k : Compiler) (line : Int) (file : Option Text) (mode : Mode) (source : Text) :
    Except Failure (Field × Int) := do
  let fault (cause : Cause) : Failure := .fault { cause := cause, line := some line, file := file }
  let (target, text) ← (k.splitField source).mapError fault
  let conversion ← k.converter text mode
  match illegal? (target.map Prod.fst) conversion.descriptor with
  | some cause => throw (fault cause)
  | none =>
    let info := closeInfo conversion.info
    let field : Field := {
      format := { conversion.descriptor with infoLength := info.length }
      source := (Text.upTo conversion.consumed text).drop 1
      info := info
      name := target.map Prod.fst
      address := target.map Prod.snd }
    let offset := match target with
      | some (name, _) => name.length + 2
      | none => 0
    return (field, offset + conversion.consumed)

/-- What becomes of the cells at a percent sign: how often the field is set, and how many cells it takes
the place of. -/
structure FormatSpan where
  copies : Nat
  taken : Nat
  deriving DecidableEq, Repr

/-- The span of a format of the given length at a percent sign that has `position` cells before it and
is the first of `remaining` cells.

A length that is not positive leads to a place among all cells, and in front of the first one places count
from the end. While that place is not behind the percent sign, the field is set in front of the percent sign,
which is then tried again one place further. If that never ends, the percent sign alone is taken. -/
def formatSpan (position remaining : Nat) (length : Int) : FormatSpan :=
  let reach := (position + remaining : Int) + length
  if 0 < length then ⟨1, length.toNat⟩
  else if 0 ≤ position + length || remaining ≤ 1 then ⟨1, 1⟩
  else if 0 < reach then ⟨1, reach.toNat⟩
  else ⟨(2 - reach).toNat, 1⟩

theorem formatSpan_of_pos (position remaining : Nat) (length : Int) (h : 0 < length) :
    formatSpan position remaining length = ⟨1, length.toNat⟩ := by
  simp [formatSpan, h]

/-- Compiles the formats of a line that has `position` cells before it. A format starts at a percent sign
and may use the characters up to the next cell that is none; two percent signs are one literal. -/
def compileFormats (k : Compiler) (line : Int) (file : Option Text) (mode : Mode) (position : Nat)
    (cells : List Cell) : Except Failure (List Cell) :=
  match cells with
  | [] => .ok []
  | .char '%' :: .char '%' :: rest => do
    let back ← k.compileFormats line file mode (position + 1) rest
    return .byte 0x25 :: back
  | .char '%' :: rest => do
    let source := '%' :: Cell.leadingChars rest
    let (field, length) ← (k.compileFormat line file mode source).mapError (·.mapFault fun f =>
      (f.locate (some line) file).addNote (some line) (.inFormat source))
    let span := formatSpan position (rest.length + 1) length
    let back ← k.compileFormats line file mode (position + span.copies) (rest.drop (span.taken - 1))
    return List.replicate span.copies (.field field) ++ back
  | cell :: rest => do
    let back ← k.compileFormats line file mode (position + 1) rest
    return cell :: back
termination_by cells.length
decreasing_by
  · simp only [List.length_cons]
    omega
  · simp only [List.length_drop, List.length_cons]
    omega
  · simp

/-- The cells of the items on one line, with the formats compiled. -/
def compileLine (k : Compiler) (p : Protocol) (mode : Mode) (position : Nat) (run : List StringItem) :
    Traced (List Cell) := do
  let cells ← Traced.flatMap (k.encode p mode k.depthLimit.toNat) run
  match mode, run with
  | .plain, _ | _, [] => return cells
  | _, i :: _ => Traced.ofExcept (k.compileFormats i.line p.file mode position cells)

def compileLines (k : Compiler) (p : Protocol) (mode : Mode) (position : Nat) :
    List (List StringItem) → Traced (List Cell)
  | [] => return []
  | run :: runs => do
    let front ← k.compileLine p mode position run
    let back ← k.compileLines p mode (position + front.length) runs
    return front ++ back

def compileString (k : Compiler) (p : Protocol) (mode : Mode) (ts : List Token) :
    Traced (List Instruction) := do
  let cells ← k.compileLines p mode 0 (lineRuns (stringItems ts))
  return Cell.toInstructions cells

end Compiler
end DeviceProtocol
