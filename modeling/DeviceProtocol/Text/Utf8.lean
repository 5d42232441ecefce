import DeviceProtocol.Text.Basic
set_option autoImplicit false

/-!
UTF-8. Decoding goes sequence by sequence; an ill-formed one ends where the bytes stop to be the start
of any well-formed sequence. A strict reader refuses it, a lenient one puts U+FFFD in its place.
-/
namespace DeviceProtocol

namespace Utf8

/-- What a lead byte announces: its payload bits, the range of the byte after it, and how many
continuation bytes follow that one. The range keeps out overlong forms, surrogates and code points
above U+10FFFF. -/
structure Lead where
  bits : Nat
  low : Nat
  high : Nat
  more : Nat

def lead? (b : Nat) : Option Lead :=
  if b < 0xC2 then none
  else if b < 0xE0 then some ⟨b - 0xC0, 0x80, 0xBF, 0⟩
  else if b < 0xF0 then
    some ⟨b - 0xE0, if b = 0xE0 then 0xA0 else 0x80, if b = 0xED then 0x9F else 0xBF, 1⟩
  else if b < 0xF5 then
    some ⟨b - 0xF0, if b = 0xF0 then 0x90 else 0x80, if b = 0xF4 then 0x8F else 0xBF, 2⟩
  else none

/-- The rest of a sequence of which `acc` has been read, with `more` continuation bytes to come. -/
def continuation (acc : Nat) : Nat → Bytes → Option Char × Bytes
  | 0, bs => (some (Char.ofNat acc), bs)
  | _ + 1, [] => (none, [])
  | more + 1, b :: bs =>
    if 0x80 ≤ b.toNat && b.toNat ≤ 0xBF then continuation (acc * 64 + (b.toNat - 0x80)) more bs
    else (none, b :: bs)

/-- The sequence that starts with `b`, or nothing if it is ill-formed, and the bytes behind it. -/
def sequence (b : UInt8) (bs : Bytes) : Option Char × Bytes :=
  if b.toNat < 0x80 then (some (Char.ofNat b.toNat), bs)
  else match lead? b.toNat with
    | none => (none, bs)
    | some l =>
      match bs with
      | [] => (none, [])
      | c :: cs =>
        if l.low ≤ c.toNat && c.toNat ≤ l.high then
          continuation (l.bits * 64 + (c.toNat - 0x80)) l.more cs
        else (none, c :: cs)

theorem continuation_length (acc more : Nat) (bs : Bytes) :
    (continuation acc more bs).2.length ≤ bs.length := by
  induction more generalizing acc bs with
  | zero => simp [continuation]
  | succ n ih =>
    cases bs with
    | nil => simp [continuation]
    | cons b bs =>
      simp only [continuation]
      split
      · have := ih (acc * 64 + (b.toNat - 0x80)) bs
        simp only [List.length_cons]
        omega
      · simp

theorem sequence_length (b : UInt8) (bs : Bytes) : (sequence b bs).2.length ≤ bs.length := by
  unfold sequence
  split
  · simp
  · cases lead? b.toNat with
    | none => simp
    | some l =>
      cases bs with
      | nil => simp
      | cons c cs =>
        have := continuation_length (l.bits * 64 + (c.toNat - 0x80)) l.more cs
        simp only [List.length_cons]
        split
        · omega
        · simp

def sequences : Bytes → List (Option Char)
  | [] => []
  | b :: bs => (sequence b bs).1 :: sequences (sequence b bs).2
termination_by bs => bs.length
decreasing_by
  have := sequence_length b bs
  simp only [List.length_cons]
  omega

end Utf8

namespace Text

def utf8 (t : Text) : Bytes := t.flatMap String.utf8EncodeChar

def ofUtf8? (bs : Bytes) : Option Text := (Utf8.sequences bs).mapM id

def ofUtf8Lenient (bs : Bytes) : Text :=
  (Utf8.sequences bs).map (·.getD (Char.ofNat 0xFFFD))

/-- Every line ending becomes a line feed. -/
def unifyNewlines : Text → Text
  | [] => []
  | '\r' :: '\n' :: cs => '\n' :: unifyNewlines cs
  | '\r' :: cs => '\n' :: unifyNewlines cs
  | c :: cs => c :: unifyNewlines cs

@[simp] theorem utf8_nil : utf8 [] = [] := rfl

end Text
end DeviceProtocol
