import DeviceProtocol.Text.Utf8
set_option autoImplicit false

namespace DeviceProtocol

inductive WireFault where
  | endOfStream
  | opcodeUnknown (code : UInt8) (offset : Nat)
  | numberTruncated
  | textUnterminated
  | textInvalid
  | descriptorTruncated
  | typeUnknown (code : Nat)
  deriving DecidableEq, Repr

/-- A value does not fit the width of its place in the stream. -/
inductive PackFault where
  | tooLarge
  deriving DecidableEq, Repr

/-- A reader takes a value from the front of the bytes and leaves the rest. -/
abbrev WireReader (α : Type) := Bytes → Except WireFault (α × Bytes)

namespace Wire

def littleEndian : Nat → Nat → Bytes
  | 0, _ => []
  | width + 1, n => UInt8.ofNat n :: littleEndian width (n / 256)

def value : Bytes → Nat
  | [] => 0
  | b :: bs => b.toNat + 256 * value bs

def number (width : Nat) : WireReader Nat := fun bs =>
  if bs.length < width then .error .numberTruncated
  else .ok (value (bs.take width), bs.drop width)

/-- Two bytes as a number with a sign. -/
def signed16 (n : Nat) : Int := if n < 0x8000 then n else (n : Int) - 0x10000

def zeroTerminated (t : Text) : Bytes := t.utf8 ++ [0]

def text : WireReader Text := fun bs =>
  match bs.dropWhile (· != 0) with
  | [] => .error .textUnterminated
  | _ :: rest =>
    match Text.ofUtf8? (bs.takeWhile (· != 0)) with
    | some t => .ok (t, rest)
    | none => .error .textInvalid

@[simp] theorem littleEndian_length (width n : Nat) : (littleEndian width n).length = width := by
  induction width generalizing n with
  | zero => rfl
  | succ width ih => simp [littleEndian, ih]

def capacity : Nat → Nat
  | 0 => 1
  | width + 1 => 256 * capacity width

theorem value_littleEndian (width n : Nat) : value (littleEndian width n) = n % capacity width := by
  induction width generalizing n with
  | zero => simp [littleEndian, value, capacity, Nat.mod_one]
  | succ width ih =>
    have byte : (UInt8.ofNat n).toNat = n % 256 := by simp
    rw [littleEndian, value, ih, byte, capacity, Nat.mod_mul]

theorem number_littleEndian (width n : Nat) (h : n < capacity width) (rest : Bytes) :
    number width (littleEndian width n ++ rest) = .ok (n, rest) := by
  simp [number, value_littleEndian, Nat.mod_eq_of_lt h, List.take_left',
    List.drop_left']

theorem number_length (width n : Nat) (bs rest : Bytes) (h : number width bs = .ok (n, rest)) :
    rest.length + width = bs.length := by
  unfold number at h
  split at h
  · simp at h
  · simp only [Except.ok.injEq, Prod.mk.injEq] at h
    rw [← h.2, List.length_drop]
    omega

theorem text_length (bs rest : Bytes) (t : Text) (h : text bs = .ok (t, rest)) :
    rest.length < bs.length := by
  unfold text at h
  split at h
  · simp at h
  · next b rest' hd =>
    split at h
    · simp only [Except.ok.injEq, Prod.mk.injEq] at h
      have := (List.dropWhile_sublist (l := bs) (· != 0)).length_le
      rw [hd, List.length_cons, h.2] at this
      omega
    · simp at h

end Wire
end DeviceProtocol
