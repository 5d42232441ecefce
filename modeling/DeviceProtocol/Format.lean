import DeviceProtocol.Fault
import DeviceProtocol.Instruction
import DeviceProtocol.Text.Case
import DeviceProtocol.Text.Integer
import DeviceProtocol.Wire
set_option autoImplicit false

/-!
Format specifiers: a percent sign, flags, a width, a point with a precision, a conversion character, and
what that character asks for: a character set, the choices of an enumeration, or a checksum.

Which specifiers exist is the converter's business. The standard one is defined here; a host may bring
another.
-/
namespace DeviceProtocol

/-- A format at the start of a text: its descriptor, how far it reaches, and its info. -/
structure Conversion where
  descriptor : Descriptor
  /-- How many characters the format takes; if negative, how many it leaves, as counted from the end. -/
  consumed : Int
  info : Bytes
  deriving DecidableEq, Repr

/-- Reads the format that starts with the percent sign at the front of a text. -/
abbrev Converter := Text → Mode → Except Failure Conversion

namespace Format

def flag? : Char → Option Flags
  | '-' => some ⟨0x01⟩
  | '+' => some ⟨0x02⟩
  | ' ' => some ⟨0x04⟩
  | '#' => some ⟨0x08⟩
  | '0' => some ⟨0x10⟩
  | '*' => some .skip
  | '?' => some ⟨0x40⟩
  | '=' => some ⟨0x80⟩
  | '!' => some ⟨0x100⟩
  | _ => none

def isFlag (c : Char) : Bool := (flag? c).isSome

def flags (cs : Text) : Flags := (cs.filterMap flag?).foldl Flags.union .empty

def type? : Char → Option FormatType
  | 'd' | 'i' | 'r' => some .signed
  | 'u' | 'o' | 'x' | 'X' | 'b' | 'D' => some .unsigned
  | 'f' | 'e' | 'E' | 'g' | 'G' => some .double
  | 's' | 'c' | '[' => some .string
  | '\x7b' => some .enum
  | '<' => some .pseudo
  | _ => none

def checksums : List String :=
  ["sum", "sum8", "sum16", "sum32", "nsum", "negsum", "-sum", "notsum", "~sum", "xor", "xor7",
   "crc8", "crc16", "crc32", "ccitt8", "ccitt16", "ccitt16a", "jamcrc", "adler32", "hexsum8",
   "lrc", "hexlrc", "modbus", "leybold", "brkscryo"]

def limit : Nat := 0x7FFF

def fault {α : Type} (cause : Cause) : Except Failure α := .error (.fault { cause := cause })

def numberValue (ds : Text) : Except Failure Nat := do
  requireFewDigits ds
  match decimal? ds with
  | some n => return n
  | none => throw (.crash .undecimalNumber)

def precision : Text → Except Failure (Int × Text)
  | '.' :: cs => do
    let n ← numberValue (cs.takeWhile isDigit)
    return ((n : Int), cs.dropWhile isDigit)
  | cs => return (-1, cs)

/-- A character set up to its closing bracket. One that stands first, or right behind a caret, does not
close it. -/
def charSet (source rest : Text) : Except Failure (Bytes × Text) :=
  let (front, tail) := match rest with
    | '^' :: ']' :: cs => (['^', ']'], cs)
    | '^' :: cs => (['^'], cs)
    | ']' :: cs => ([']'], cs)
    | cs => ([], cs)
  match Text.cutAt? ']' tail with
  | some (body, after) => .ok (Wire.zeroTerminated (front ++ body), after)
  | none => fault (.charSetUnclosed source)

/-- The choices of an enumeration, of which at least one has to be spelled. -/
def choices (source rest : Text) : Except Failure (Bytes × Text) :=
  match Text.cutAt? '\x7d' rest with
  | some (body, after) =>
    if body.all (· == '|') then fault .enumEmpty
    else .ok (Wire.zeroTerminated (body.map fun c => if c = '|' then Char.ofNat 0 else c), after)
  | none => fault (.enumUnclosed source)

def checksum (source rest : Text) : Except Failure (Bytes × Text) :=
  match Text.cutAt? '>' rest with
  | some (body, after) =>
    let name := Text.lower body
    if checksums.contains name.str then .ok (Wire.zeroTerminated name, after)
    else fault (.checksumUnknown body)
  | none => fault (.checksumUnclosed source)

def info (conversion : Char) (source rest : Text) : Except Failure (Bytes × Text) :=
  match conversion with
  | '[' => charSet source rest
  | '\x7b' => choices source rest
  | '<' => checksum source rest
  | _ => .ok ([], rest)

def standard : Converter := fun source mode =>
  match source with
  | '%' :: cs => do
    let flags := flags (cs.takeWhile isFlag)
    let cs := cs.dropWhile isFlag
    let width ← numberValue (cs.takeWhile isDigit)
    let (precision, cs) ← precision (cs.dropWhile isDigit)
    if limit < width || (limit : Int) < precision then
      fault (.widthTooLarge (source.take (source.length - cs.length)))
    else match cs with
      | [] => fault (.conversionMissing source)
      | conversion :: cs =>
        match type? conversion with
        | none => fault (.conversionUnknown conversion)
        | some type =>
          if flags.skips && mode != .scan then fault .skipOnOutput
          else do
            let (info, rest) ← info conversion source cs
            return {
              descriptor := ⟨type, conversion, flags, width, precision, info.length⟩
              consumed := source.length - rest.length
              info := info }
  | _ => fault (.formatStartExpected source)

end Format
end DeviceProtocol
