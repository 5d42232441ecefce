import DeviceProtocol.Fault
set_option autoImplicit false

/-!
Integer literals: an optional sign, then `0x` and hexadecimal digits, or `0` and octal digits, or
decimal digits that start with none. Only digits of the ASCII range take part.
-/
namespace DeviceProtocol

/-- The most decimal digits that are converted into a number. -/
def maxDigits : Nat := 4300

/-- Refuses digits that are too many for a number, leading zeros included. -/
def requireFewDigits (digits : Text) : Except Failure Unit :=
  if maxDigits < digits.length then .error (.crash (.longNumber digits)) else .ok ()

def isOctalDigit (c : Char) : Bool := '0' ≤ c && c ≤ '7'

def isDecimalDigit (c : Char) : Bool := '0' ≤ c && c ≤ '9'

def isHexDigit (c : Char) : Bool :=
  isDecimalDigit c || ('a' ≤ c && c ≤ 'f') || ('A' ≤ c && c ≤ 'F')

theorem ascii_of_isHexDigit (c : Char) (hex : isHexDigit c = true) : c.toNat < 0x80 := by
  simp only [isHexDigit, isDecimalDigit, Bool.or_eq_true, Bool.and_eq_true, decide_eq_true_eq] at hex
  rcases hex with (⟨-, le⟩ | ⟨-, le⟩) | ⟨-, le⟩ <;>
    exact Nat.lt_of_le_of_lt (show c.toNat ≤ _ from le) (by decide)

/-- The value of a digit of any base up to sixteen. -/
def hexDigitValue (c : Char) : Nat :=
  if isDecimalDigit c then c.toNat - 48 else c.toLower.toNat - 87

def digitsValue (base : Nat) (ds : Text) : Nat :=
  ds.foldl (fun acc d => base * acc + hexDigitValue d) 0

namespace Text

def octal (cs : Text) : Nat × Nat :=
  let ds := cs.takeWhile isOctalDigit
  (digitsValue 8 ds, ds.length + 1)

def magnitude? : Text → Option (Nat × Nat)
  | [] => none
  | '0' :: cs =>
    match cs with
    | x :: ds =>
      let hex := ds.takeWhile isHexDigit
      if (x == 'x' || x == 'X') && !hex.isEmpty then some (digitsValue 16 hex, hex.length + 2)
      else some (octal cs)
    | [] => some (octal cs)
  | c :: cs =>
    if isDecimalDigit c then
      let ds := c :: cs.takeWhile isDecimalDigit
      some (digitsValue 10 ds, ds.length)
    else none

def integer? (t : Text) : Option (Int × Nat) :=
  match t with
  | '-' :: cs => (magnitude? cs).map fun (n, len) => (-(n : Int), len + 1)
  | '+' :: cs => (magnitude? cs).map fun (n, len) => ((n : Int), len + 1)
  | cs => (magnitude? cs).map fun (n, len) => ((n : Int), len)

def magnitudeDigits : Text → Text
  | '0' :: _ => []
  | cs => cs.takeWhile isDecimalDigit

/-- The digits of the decimal literal a text starts with. The other bases have no limit. -/
def decimalDigits (t : Text) : Text :=
  match t with
  | '-' :: cs | '+' :: cs => magnitudeDigits cs
  | cs => magnitudeDigits cs

theorem mem_magnitudeDigits {t : Text} {d : Char} (h : d ∈ t.magnitudeDigits) : isDecimalDigit d = true := by
  unfold magnitudeDigits at h
  split at h
  · cases h
  · exact List.all_eq_true.mp List.all_takeWhile d h

theorem mem_decimalDigits {t : Text} {d : Char} (h : d ∈ t.decimalDigits) : isDecimalDigit d = true := by
  unfold decimalDigits at h
  split at h <;> exact mem_magnitudeDigits h

def integer (t : Text) : Except Failure (Option (Int × Nat)) := do
  requireFewDigits t.decimalDigits
  return t.integer?

end Text
end DeviceProtocol
