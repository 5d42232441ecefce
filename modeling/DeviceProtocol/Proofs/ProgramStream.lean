import DeviceProtocol.Proofs.StringStream
set_option autoImplicit false

namespace DeviceProtocol

namespace Operand

/-- Bytes that spell an operand. A string is spelled byte by byte and merged when it is read. -/
inductive Spelled : Operand → Bytes → Prop
  | string (items : List Instruction) (bs : Bytes) :
      Instruction.Spelled items bs → Spelled (.string (Instruction.merge items)) bs
  | number (n : UInt32) : Spelled (.number n) (Wire.littleEndian 4 n.toNat)

theorem Spelled.canonical {o : Operand} {bs : Bytes} (h : Spelled o bs) : o.Canonical := by
  cases h with
  | string items bs hs => exact Instruction.canonicalString_merge items hs.canonical
  | number n => exact n.toNat_lt

theorem Spelled.length_le {o : Operand} {bs : Bytes} (h : Spelled o bs) :
    o.bytes.length ≤ bs.length := by
  cases h with
  | string items bs hs =>
    rw [bytes, Instruction.stringBytes, Instruction.bytes_merge]
    exact hs.length_le
  | number n => exact Nat.le_refl _

theorem spelled_bytes (o : Operand) (h : o.Canonical) : Spelled o o.bytes := by
  cases o with
  | string is =>
    have hs := Spelled.string _ _ (Instruction.spelled_stringBytes is h.each)
    rwa [Instruction.merge_singles is h.each, Instruction.merge_of_apart is h.apart] at hs
  | number n => exact .number n

theorem read_spelled (o : Operand) (bs rest : Bytes) (h : Spelled o bs) :
    read o.kind (bs ++ rest) = .ok (o, rest) := by
  cases h with
  | string items bs hs =>
    have hi := Instruction.readItems_spelled items bs rest hs
    simp only [kind, read, Instruction.readString, hi, bind, Except.bind, pure, Except.pure]
  | number n =>
    have hn := Wire.number_littleEndian 4 n.toNat n.toNat_lt rest
    simp only [kind, read, hn, bind, Except.bind, pure, Except.pure, UInt32.ofNat_toNat]

theorem read_sound (k : OperandKind) (bs rest : Bytes) (o : Operand)
    (h : read k bs = .ok (o, rest)) : o.kind = k ∧ ∃ used, Spelled o used ∧ bs = used ++ rest := by
  cases k with
  | string =>
    obtain ⟨⟨is, tail⟩, hi, h⟩ := (Except.bind_eq_ok_iff _ _ _).mp h
    simp only [pure, Except.pure, Except.ok.injEq, Prod.mk.injEq] at h
    obtain ⟨rfl, rfl⟩ := h
    obtain ⟨items, used, hs, rfl, rfl⟩ := Instruction.readString_sound bs tail is hi
    exact ⟨rfl, used, .string items used hs, rfl⟩
  | number =>
    obtain ⟨⟨n, tail⟩, hn, h⟩ := (Except.bind_eq_ok_iff _ _ _).mp h
    simp only [pure, Except.pure, Except.ok.injEq, Prod.mk.injEq] at h
    obtain ⟨rfl, rfl⟩ := h
    obtain ⟨hlt, rfl⟩ := Wire.number_sound 4 n bs tail hn
    have hv : (UInt32.ofNat n).toNat = n := UInt32.toNat_ofNat_of_lt' hlt
    refine ⟨rfl, Wire.littleEndian 4 n, ?_, rfl⟩
    have hs := Spelled.number (UInt32.ofNat n)
    rwa [hv] at hs

inductive AllSpelled : List Operand → Bytes → Prop
  | nil : AllSpelled [] []
  | cons (o : Operand) (os : List Operand) (bs tail : Bytes) :
      Spelled o bs → AllSpelled os tail → AllSpelled (o :: os) (bs ++ tail)

theorem allSpelled_bytes (os : List Operand) (h : ∀ o ∈ os, o.Canonical) :
    AllSpelled os (os.flatMap bytes) := by
  induction os with
  | nil => exact .nil
  | cons o os ih =>
    rw [List.forall_mem_cons] at h
    exact .cons o os _ _ (spelled_bytes o h.1) (ih h.2)

theorem AllSpelled.canonical {os : List Operand} {bs : Bytes} (h : AllSpelled os bs) :
    ∀ o ∈ os, o.Canonical := by
  induction h with
  | nil => simp
  | cons o os bs tail ho _ ih => exact List.forall_mem_cons.mpr ⟨ho.canonical, ih⟩

theorem AllSpelled.length_le {os : List Operand} {bs : Bytes} (h : AllSpelled os bs) :
    (os.flatMap bytes).length ≤ bs.length := by
  induction h with
  | nil => simp
  | cons o os bs tail ho _ ih =>
    have := ho.length_le
    rw [List.flatMap_cons, List.length_append, List.length_append]
    omega

theorem readAll_spelled (os : List Operand) (bs rest : Bytes) (h : AllSpelled os bs) :
    readAll (os.map kind) (bs ++ rest) = .ok (os, rest) := by
  induction h with
  | nil => rfl
  | cons o os bs tail ho _ ih =>
    rw [List.map_cons, List.append_assoc]
    simp only [readAll, read_spelled o bs _ ho, ih, bind, Except.bind, pure, Except.pure]

theorem readAll_sound (ks : List OperandKind) (bs rest : Bytes) (os : List Operand)
    (h : readAll ks bs = .ok (os, rest)) :
    os.map kind = ks ∧ ∃ used, AllSpelled os used ∧ bs = used ++ rest := by
  induction ks generalizing bs os with
  | nil =>
    simp only [readAll, pure, Except.pure, Except.ok.injEq, Prod.mk.injEq] at h
    obtain ⟨rfl, rfl⟩ := h
    exact ⟨rfl, [], .nil, rfl⟩
  | cons k ks ih =>
    obtain ⟨⟨o, bs₁⟩, ho, h⟩ := (Except.bind_eq_ok_iff _ _ _).mp h
    obtain ⟨⟨os', bs₂⟩, hos, h⟩ := (Except.bind_eq_ok_iff _ _ _).mp h
    simp only [pure, Except.pure, Except.ok.injEq, Prod.mk.injEq] at h
    obtain ⟨rfl, rfl⟩ := h
    obtain ⟨rfl, used, hs, rfl⟩ := read_sound k bs bs₁ o ho
    obtain ⟨rfl, used', hs', rfl⟩ := ih bs₁ os' hos
    exact ⟨rfl, _, .cons o os' used used' hs hs', by rw [List.append_assoc]⟩

end Operand

theorem OpCode.code_of_ofCode? (b : UInt8) (op : OpCode) (h : ofCode? b = some op) : op.code = b := by
  simpa using List.find?_some h

namespace Command

/-- Bytes that spell commands up to the end of a program. The stream holds no lines. -/
inductive Spelled : List Command → Bytes → Prop
  | stop : Spelled [] [OpCode.stop.code]
  | command (op : OpCode) (os : List Operand) (cs : List Command) (bs tail : Bytes)
      (running : op ≠ .stop) (kinds : os.map Operand.kind = op.operands) :
      Operand.AllSpelled os bs → Spelled cs tail →
      Spelled ({ opcode := op, operands := os } :: cs) (op.code :: (bs ++ tail))

def withoutLine (c : Command) : Command := { c with line := 0 }

theorem spelled_bytes (cs : List Command) (h : ∀ c ∈ cs, c.Canonical) :
    Spelled (cs.map withoutLine) (cs.flatMap bytes ++ [OpCode.stop.code]) := by
  induction cs with
  | nil => exact .stop
  | cons c cs ih =>
    rw [List.forall_mem_cons] at h
    obtain ⟨hc, hcs⟩ := h
    rw [List.map_cons, List.flatMap_cons, bytes, List.append_assoc, List.cons_append]
    exact .command c.opcode c.operands _ _ _ hc.opcode hc.kinds
      (Operand.allSpelled_bytes c.operands hc.each) (ih hcs)

theorem Spelled.canonical {cs : List Command} {bs : Bytes} (h : Spelled cs bs) :
    ∀ c ∈ cs, c.Canonical := by
  induction h with
  | stop => simp
  | command op os cs bs tail running kinds hos _ ih =>
    exact List.forall_mem_cons.mpr ⟨⟨running, kinds, hos.canonical⟩, ih⟩

theorem Spelled.withoutLine {cs : List Command} {bs : Bytes} (h : Spelled cs bs) :
    cs.map Command.withoutLine = cs := by
  induction h with
  | stop => rfl
  | command op os cs bs tail _ _ _ _ ih => rw [List.map_cons, ih, Command.withoutLine]

theorem Spelled.length_le {cs : List Command} {bs : Bytes} (h : Spelled cs bs) :
    (cs.flatMap bytes).length + 1 ≤ bs.length := by
  induction h with
  | stop => simp
  | command op os cs bs tail _ _ hos _ ih =>
    have := hos.length_le
    simp only [List.flatMap_cons, List.length_append, bytes, List.length_cons] at ih ⊢
    omega

end Command

namespace Program

theorem readCommands_code (total : Nat) (op : OpCode) (h : op ≠ .stop) (bs rest : Bytes)
    (os : List Operand) (hos : Operand.readAll op.operands bs = .ok (os, rest)) :
    readCommands total (op.code :: bs) =
      (readCommands total rest).map ({ opcode := op, operands := os } :: ·) := by
  rw [readCommands, OpCode.ofCode?_code]
  split
  · simp_all
  · simp_all
  · rename_i op' _ hop
    simp only [Option.some.injEq] at hop
    subst hop
    split
    · rename_i e he
      rw [hos] at he
      simp at he
    · rename_i os' rest' ho
      rw [hos, Except.ok.injEq, Prod.mk.injEq] at ho
      rw [ho.1, ho.2]

theorem readCommands_spelled (total : Nat) (cs : List Command) (bs rest : Bytes)
    (h : Command.Spelled cs bs) : readCommands total (bs ++ rest) = .ok cs := by
  induction h with
  | stop => rw [List.singleton_append, readCommands, OpCode.ofCode?_code]
  | command op os cs bs tail running kinds hos _ ih =>
    have ho := Operand.readAll_spelled os bs (tail ++ rest) hos
    rw [kinds] at ho
    rw [List.cons_append, List.append_assoc, readCommands_code total op running _ _ os ho, ih]
    rfl

theorem readCommands_sound (total : Nat) (bs : Bytes) (cs : List Command)
    (h : readCommands total bs = .ok cs) : ∃ used rest, Command.Spelled cs used ∧ bs = used ++ rest := by
  fun_induction readCommands total bs generalizing cs with
  | case1 | case2 | case4 => simp at h
  | case3 b rest hb =>
    rw [Except.ok.injEq] at h
    rw [← h, ← OpCode.code_of_ofCode? b _ hb]
    exact ⟨_, rest, .stop, rfl⟩
  | case5 b tail op running hb os tail' hos ih =>
    obtain ⟨cs', hcs, rfl⟩ := (Except.map_eq_ok_iff _ _ _).mp h
    obtain ⟨used, rest, hs, rfl⟩ := ih cs' hcs
    obtain ⟨kinds, front, hf, rfl⟩ := Operand.readAll_sound _ _ _ os hos
    rw [← OpCode.code_of_ofCode? b _ hb]
    exact ⟨_, rest, .command op os cs' front used running kinds hf hs, by simp⟩

theorem read_eq_ok_iff (data : Bytes) (p : Program) :
    read data = .ok p ↔ ∃ used rest, Command.Spelled p.commands used ∧ data = used ++ rest := by
  rw [read, Except.map_eq_ok_iff]
  constructor
  · rintro ⟨cs, hcs, rfl⟩
    exact readCommands_sound _ data cs hcs
  · rintro ⟨used, rest, hs, rfl⟩
    exact ⟨p.commands, readCommands_spelled _ p.commands used rest hs, rfl⟩

theorem code_withoutLine (p : Program) : code ⟨p.commands.map Command.withoutLine⟩ = p.code := by
  simp [code, Command.withoutLine]

theorem read_bytes (p : Program) (h : p.Canonical) (rest : Bytes) :
    read (p.bytes ++ rest) = .ok ⟨p.commands.map Command.withoutLine⟩ :=
  (read_eq_ok_iff _ _).mpr ⟨p.bytes, rest, Command.spelled_bytes p.commands h, rfl⟩

/-- Writing a canonical program succeeds, and reading it with anything behind it gives its commands with their
operands. -/
theorem read_packed (p : Program) (h : p.Canonical) (rest : Bytes) :
    ∃ bs q, p.pack = .ok bs ∧ read (bs ++ rest) = .ok q ∧ q.code = p.code :=
  ⟨p.bytes, _, pack_of_canonical p h, read_bytes p h rest, code_withoutLine p⟩

/-- Data bytes with the values of sentinels, an address and an info that hold zero bytes, and a stream that goes on
with the code of a command. -/
theorem read_packed_sentinels :
    let p : Program := ⟨[
      ⟨.output, 3, [.string [.literal [0x00, 0x1B, 0x41, 0x04], .control .skip,
        .field ⟨⟨.string, '[', ⟨0x11⟩, 5, -1, 3⟩, "[\u00e9".toList, [0x00, 0x1B, 0x00], some ['n'], some [0x00, 0x03]⟩,
        .literal [0x01]]]⟩,
      ⟨.event, 4, [.number 0xFFFFFFFF, .number 0]⟩, ⟨.disconnect, 5, []⟩]⟩
    p.Canonical ∧ ∃ bs q, p.pack = .ok bs ∧ read (bs ++ [0x02, 0x1B]) = .ok q ∧ q.code = p.code :=
  ⟨by decide, read_packed _ (by decide) _⟩

/-- What is read was spelled out in full at the start of the stream, addresses, infos and escaped bytes included;
it is canonical; and it is written in no more bytes than the stream had, from which it is read again. -/
theorem read_canonical (data : Bytes) (p : Program) (h : read data = .ok p) :
    (∃ used rest, Command.Spelled p.commands used ∧ data = used ++ rest) ∧ p.Canonical ∧
      ∃ bs, p.pack = .ok bs ∧ read bs = .ok p ∧ bs.length ≤ data.length := by
  obtain ⟨used, rest, hs, rfl⟩ := (read_eq_ok_iff data p).mp h
  have hc : p.Canonical := hs.canonical
  refine ⟨⟨used, rest, hs, rfl⟩, hc, p.bytes, pack_of_canonical p hc, ?_, ?_⟩
  · have hr := read_bytes p hc []
    rwa [List.append_nil, hs.withoutLine] at hr
  · have := hs.length_le
    rw [bytes, List.length_append, List.length_append, List.length_singleton]
    omega

/-- A stream that escapes a byte without need, holds a field with an address and an info, and goes on behind
its end. -/
theorem read_canonical_escaped :
    let data : Bytes := [0x02, 0x1B, 0x41, 0x42, 0x01, 0x04, 0x6E, 0x00, 0x02, 0x00, 0x00, 0x1B, 0x5B, 0x61, 0x5D, 0x00,
      0x05, 0x5B, 0x00, 0x00, 0x00, 0x00, 0xFF, 0xFF, 0x02, 0x00, 0x61, 0x00, 0x00, 0x00, 0xFF]
    let p : Program := ⟨[⟨.output, 0, [.string [.literal [0x41, 0x42], .control .skip,
      .field ⟨⟨.string, '[', ⟨0⟩, 0, -1, 2⟩, "[a]".toList, [0x61, 0x00], some ['n'], some [0x00, 0x1B]⟩]]⟩]⟩
    read data = .ok p ∧ (∃ used rest, Command.Spelled p.commands used ∧ data = used ++ rest) ∧ p.Canonical ∧
      ∃ bs, p.pack = .ok bs ∧ read bs = .ok p ∧ bs.length ≤ data.length := by
  intro data p
  have h : read data = .ok p := by decide +kernel
  exact ⟨h, read_canonical data p h⟩

end Program
end DeviceProtocol
