import DeviceProtocol.Program
import DeviceProtocol.Instruction.Wire
set_option autoImplicit false

/-!
Programs in the byte stream: the code of each command, its operands, and a zero byte at the end. Lines
are not written. Bytes behind the end of a program are not looked at.
-/
namespace DeviceProtocol

namespace Operand

def bytes : Operand → Bytes
  | string is => Instruction.stringBytes is
  | number n => Wire.littleEndian 4 n.toNat

def fits : Operand → Bool
  | string is => is.all Instruction.fits
  | number _ => true

def read : OperandKind → WireReader Operand
  | .string => fun bs => do
    let (is, rest) ← Instruction.readString bs
    return (string is, rest)
  | .number => fun bs => do
    let (n, rest) ← Wire.number 4 bs
    return (number (UInt32.ofNat n), rest)

def readAll : List OperandKind → WireReader (List Operand)
  | [] => fun bs => return ([], bs)
  | k :: ks => fun bs => do
    let (operand, bs) ← read k bs
    let (operands, bs) ← readAll ks bs
    return (operand :: operands, bs)

end Operand

namespace Command

def bytes (c : Command) : Bytes := c.opcode.code :: c.operands.flatMap Operand.bytes

def fits (c : Command) : Bool := c.operands.all Operand.fits

end Command

namespace Instruction

theorem prepend_eq_ok (i : Instruction) (r : Except WireFault (List Instruction × Bytes))
    (is : List Instruction) (rest : Bytes) (h : prepend i r = .ok (is, rest)) :
    ∃ js, r = .ok (js, rest) ∧ is = i :: js := by
  cases r with
  | error e => simp [prepend, Except.map] at h
  | ok p =>
    simp only [prepend, Except.map, Except.ok.injEq, Prod.mk.injEq] at h
    exact ⟨p.1, by rw [← h.2], h.1.symm⟩

theorem readItems_length (bs rest : Bytes) (is : List Instruction)
    (h : readItems bs = .ok (is, rest)) : rest.length < bs.length := by
  fun_induction readItems bs generalizing is with
  | case1 => simp at h
  | case2 b tail hb =>
    simp only [Except.ok.injEq, Prod.mk.injEq] at h
    simp [← h.2]
  | case3 b tail hb ih =>
    obtain ⟨js, hjs, -⟩ := prepend_eq_ok _ _ _ _ h
    have := ih js hjs
    simp only [List.length_drop, List.length_cons] at *
    omega
  | case4 b tail hb ih | case5 b tail hb ih | case10 b tail hb ih =>
    obtain ⟨js, hjs, -⟩ := prepend_eq_ok _ _ _ _ h
    have := ih js hjs
    simp only [List.length_cons]
    omega
  | case6 | case8 => simp at h
  | case7 b tail hb f tail' hf ih =>
    obtain ⟨js, hjs, -⟩ := prepend_eq_ok _ _ _ _ h
    have := ih js hjs
    have := Field.read_length false tail tail' f hf
    simp only [List.length_cons]
    omega
  | case9 b tail hb f tail' hf ih =>
    obtain ⟨js, hjs, -⟩ := prepend_eq_ok _ _ _ _ h
    have := ih js hjs
    have := Field.read_length true tail tail' f hf
    simp only [List.length_cons]
    omega

end Instruction

theorem Operand.read_length (k : OperandKind) (bs rest : Bytes) (o : Operand)
    (h : Operand.read k bs = .ok (o, rest)) : rest.length ≤ bs.length := by
  cases k with
  | string =>
    simp only [read, Instruction.readString] at h
    cases hi : Instruction.readItems bs with
    | error e => simp [hi, bind, Except.bind] at h
    | ok p =>
      obtain ⟨is, bs₁⟩ := p
      simp only [hi, bind, Except.bind, pure, Except.pure, Except.ok.injEq, Prod.mk.injEq] at h
      rw [← h.2]
      exact Nat.le_of_lt (Instruction.readItems_length bs bs₁ is hi)
  | number =>
    simp only [read] at h
    cases hn : Wire.number 4 bs with
    | error e => simp [hn, bind, Except.bind] at h
    | ok p =>
      obtain ⟨n, bs₁⟩ := p
      have := Wire.number_length 4 n bs bs₁ hn
      simp only [hn, bind, Except.bind, pure, Except.pure, Except.ok.injEq, Prod.mk.injEq] at h
      rw [← h.2]
      omega

theorem Operand.readAll_length (ks : List OperandKind) (bs rest : Bytes) (os : List Operand)
    (h : Operand.readAll ks bs = .ok (os, rest)) : rest.length ≤ bs.length := by
  induction ks generalizing bs os with
  | nil =>
    simp only [readAll, pure, Except.pure, Except.ok.injEq, Prod.mk.injEq] at h
    simp [h.2]
  | cons k ks ih =>
    simp only [readAll] at h
    cases hk : Operand.read k bs with
    | error e => simp [hk, bind, Except.bind] at h
    | ok p =>
      obtain ⟨o, bs₁⟩ := p
      cases hks : Operand.readAll ks bs₁ with
      | error e => simp [hk, hks, bind, Except.bind] at h
      | ok q =>
        obtain ⟨os', bs₂⟩ := q
        have h₁ := Operand.read_length k bs bs₁ o hk
        have h₂ := ih bs₁ os' (by
          simp only [hk, hks, bind, Except.bind, pure, Except.pure, Except.ok.injEq,
            Prod.mk.injEq] at h
          rw [hks, h.2])
        omega

namespace Program

def bytes (p : Program) : Bytes := p.commands.flatMap Command.bytes ++ [OpCode.stop.code]

def fits (p : Program) : Bool := p.commands.all Command.fits

def pack (p : Program) : Except PackFault Bytes :=
  if p.fits then .ok p.bytes else .error .tooLarge

def readCommands (total : Nat) (bs : Bytes) : Except WireFault (List Command) :=
  match bs with
  | [] => .error .endOfStream
  | b :: rest =>
    match OpCode.ofCode? b with
    | none => .error (.opcodeUnknown b (total - bs.length))
    | some .stop => .ok []
    | some op =>
      match _h : Operand.readAll op.operands rest with
      | .error e => .error e
      | .ok (operands, rest') =>
        (readCommands total rest').map ({ opcode := op, operands := operands } :: ·)
termination_by bs.length
decreasing_by exact Nat.lt_succ_of_le (Operand.readAll_length op.operands rest rest' operands _h)

def read (data : Bytes) : Except WireFault Program :=
  (readCommands data.length data).map (⟨·⟩)

def readsBack (p : Program) : Except WireFault Bool :=
  (read p.bytes).map fun q => q.code = p.code

end Program

def WireFault.message : WireFault → String
  | endOfStream => "The stream ends inside a command or a string"
  | opcodeUnknown code offset =>
    s!"Invalid opcode 0x{(Text.numeral 16 2 code.toNat).str} at offset {offset}"
  | numberTruncated => "The stream ends inside a number"
  | textUnterminated => "A text has no end"
  | textInvalid => "A text is not well-formed"
  | descriptorTruncated => "The stream ends inside a descriptor"
  | typeUnknown code => s!"There is no format type {code}"

end DeviceProtocol
