import DeviceProtocol.Compile.Source
import DeviceProtocol.Proofs.ProgramStream
import DeviceProtocol.Proofs.StorableStrings
set_option autoImplicit false

namespace DeviceProtocol

namespace Instruction

def field? : Instruction → Option Field
  | .field f => some f
  | _ => none

def fields (is : List Instruction) : List Field := is.filterMap field?

theorem fields_merge (is : List Instruction) : fields (merge is) = fields is := by
  fun_induction merge is <;> simp_all [fields, field?, List.filterMap_cons]

end Instruction

def Command.fields (c : Command) : List Field :=
  (c.operands.flatMap Operand.strings).flatMap Instruction.fields

def Program.fields (p : Program) : List Field := p.commands.flatMap Command.fields

theorem Cell.toInstruction_canonical (c : Cell) (h : c.Storable)
    (short : ∀ f ∈ c.toInstruction.field?, f.info.length < 0x10000) : c.toInstruction.Canonical := by
  cases c with
  | char c =>
    have hl : (Text.utf8 [c]).length = c.utf8Size := by simp [Text.utf8, String.length_utf8EncodeChar]
    intro hnil
    rw [hnil] at hl
    exact absurd hl (Nat.ne_of_lt c.utf8Size_pos)
  | byte b => simp [toInstruction, Instruction.Canonical]
  | control code => exact h
  | field f => exact h (short f rfl)

namespace Protocol

theorem eventOperands_cases (p : Protocol) (a b : Arguments) (os : List Operand)
    (h : (p.eventOperands a).result = .ok (os, b)) :
    ∃ mask timeout, os = [.number mask, .number timeout] := by
  unfold eventOperands at h
  obtain ⟨⟨mask, a₁⟩, _, h⟩ := (Traced.bind_eq_ok_iff _ _ _).mp h
  dsimp only at h
  split at h
  · cases h
    exact ⟨mask, 0, rfl⟩
  · obtain ⟨⟨timeout, a₂⟩, _, h⟩ := (Traced.bind_eq_ok_iff _ _ _).mp h
    cases h
    exact ⟨mask, timeout, rfl⟩

end Protocol

theorem stringCommand?_operands (name : Text) (op : OpCode) (mode : Mode)
    (h : stringCommand? name = some (op, mode)) : op ≠ .stop ∧ op.operands = [.string] := by
  unfold stringCommand? at h
  split at h
  · cases h
    decide
  · split at h
    · cases h
      decide
    · split at h
      · cases h
        decide
      · cases h

theorem numberCommand?_operands (name : Text) (op : OpCode) (h : numberCommand? name = some op) :
    op ≠ .stop ∧ op.operands = [.number] := by
  unfold numberCommand? at h
  split at h
  · cases h
    decide
  · split at h
    · cases h
      decide
    · cases h

namespace Compiler

variable (k : Compiler)

theorem compileString_canonical (hk : k.Storable) (p : Protocol) (mode : Mode) (ts : List Token)
    (is : List Instruction) (h : (k.compileString p mode ts).result = .ok is)
    (short : ∀ f ∈ Instruction.fields is, f.info.length < 0x10000) :
    Instruction.CanonicalString is := by
  unfold compileString at h
  obtain ⟨cells, hc, h⟩ := (Traced.bind_eq_ok_iff _ _ _).mp h
  cases h
  rw [Cell.toInstructions, Instruction.fields_merge] at short
  refine Instruction.canonicalString_merge _ fun i hi => ?_
  obtain ⟨c, hmem, rfl⟩ := List.mem_map.mp hi
  refine c.toInstruction_canonical (k.compileLines_storable hk p mode 0 _ cells hc c hmem) fun f hf => ?_
  exact short f (List.mem_filterMap.mpr ⟨_, hi, hf⟩)

theorem compileNamed_cases (p : Protocol) (name : Text) (line : Int) (a b : Arguments) (c : Command)
    (h : (k.compileNamed p name line a).result = .ok (c, b)) :
    (∃ op mode is, stringCommand? name = some (op, mode) ∧
      (k.compileString p mode a.rest).result = .ok is ∧ c = ⟨op, line, [.string is]⟩ ∧ b = a.finish) ∨
    (∃ op n, numberCommand? name = some op ∧ (p.commandNumber a).result = .ok (n, b) ∧
      c = ⟨op, line, [.number n]⟩) ∨
    (∃ os, name = "event".toList ∧ (p.eventOperands a).result = .ok (os, b) ∧
      c = ⟨.event, line, os⟩) ∨
    (name = "disconnect".toList ∧ c = ⟨.disconnect, line, []⟩ ∧ b = a) := by
  unfold compileNamed at h
  split at h
  · rename_i op mode hop
    obtain ⟨is, hs, h⟩ := (Traced.bind_eq_ok_iff _ _ _).mp h
    cases h
    exact .inl ⟨op, mode, is, hop, hs, rfl, rfl⟩
  · split at h
    · rename_i op hop
      obtain ⟨⟨n, a₁⟩, hn, h⟩ := (Traced.bind_eq_ok_iff _ _ _).mp h
      cases h
      exact .inr (.inl ⟨op, n, hop, hn, rfl⟩)
    · split at h
      · rename_i hname
        obtain ⟨⟨os, a₁⟩, hos, h⟩ := (Traced.bind_eq_ok_iff _ _ _).mp h
        cases h
        exact .inr (.inr (.inl ⟨os, hname, hos, rfl⟩))
      · split at h
        · rename_i hname
          cases h
          exact .inr (.inr (.inr ⟨hname, rfl, rfl⟩))
        · exact absurd h (Traced.fault_ne_ok _ _ _ _)

theorem compileNamed_canonical (hk : k.Storable) (p : Protocol) (name : Text) (line : Int)
    (a b : Arguments) (c : Command) (h : (k.compileNamed p name line a).result = .ok (c, b))
    (short : ∀ f ∈ c.fields, f.info.length < 0x10000) : c.Canonical := by
  obtain ⟨op, mode, is, hop, hs, rfl, -⟩ | ⟨op, n, hop, -, rfl⟩ | ⟨os, -, hos, rfl⟩ | ⟨-, rfl, -⟩ :=
    k.compileNamed_cases p name line a b c h
  · obtain ⟨running, kinds⟩ := stringCommand?_operands name op mode hop
    refine ⟨running, kinds.symm, fun o ho => ?_⟩
    rw [List.eq_of_mem_singleton ho]
    exact k.compileString_canonical hk p mode a.rest is hs (by simpa [Command.fields, Operand.strings] using short)
  · obtain ⟨running, kinds⟩ := numberCommand?_operands name op hop
    exact ⟨running, kinds.symm, by simp [Operand.Canonical, n.toNat_lt]⟩
  · obtain ⟨mask, timeout, rfl⟩ := p.eventOperands_cases a b os hos
    exact ⟨by simp, rfl, by simp [Operand.Canonical, mask.toNat_lt, timeout.toNat_lt]⟩
  · exact ⟨by simp, rfl, by simp⟩

/-- The command is what some name with its arguments is compiled to. -/
def Emits (p : Protocol) (c : Command) : Prop :=
  ∃ name line a b, (k.compileNamed p name line a).result = .ok (c, b)

theorem compileCommand_emits (p : Protocol) (segment : Token × List Token) (c : Command)
    (h : (k.compileCommand p segment).result = .ok c) : k.Emits p c := by
  unfold compileCommand at h
  obtain ⟨⟨command, a⟩, hn, h⟩ := (Traced.bind_eq_ok_iff _ _ _).mp h
  rw [Traced.mapFault_eq_ok_iff] at hn
  dsimp only at h
  split at h
  · cases h
    exact ⟨_, _, _, a, hn⟩
  · exact absurd h (Traced.fault_ne_ok _ _ _ _)

theorem compileCommands_emits (p : Protocol) (ts : List Token) (program : Program)
    (h : (k.compileCommands p ts).result = .ok program) : ∀ c ∈ program.commands, k.Emits p c := by
  unfold compileCommands at h
  split at h
  · exact absurd h (Traced.fault_ne_ok _ _ _ _)
  · obtain ⟨commands, hc, h⟩ := (Traced.bind_eq_ok_iff _ _ _).mp h
    cases h
    exact Traced.forAll_forall _ _ _ _ (fun segment _ c hc => k.compileCommand_emits p segment c hc) hc

theorem compileInstance_emits (p : Protocol) (program : Program)
    (h : (k.compileInstance p).result = .ok program) : ∀ c ∈ program.commands, k.Emits p c := by
  unfold compileInstance ownProgram at h
  obtain ⟨_, _, h⟩ := (Traced.bind_eq_ok_iff _ _ _).mp h
  obtain ⟨own, hown, h⟩ := (Traced.bind_eq_ok_iff _ _ _).mp h
  obtain ⟨_, _, hown⟩ := (Traced.bind_eq_ok_iff _ _ _).mp hown
  cases h
  split at hown
  · cases hown
    simp [Program.empty]
  · obtain ⟨compiled, hcompiled, hown⟩ := (Traced.bind_eq_ok_iff _ _ _).mp hown
    rw [Traced.mapFault_eq_ok_iff] at hcompiled
    cases hown
    exact k.compileCommands_emits p _ compiled hcompiled

theorem canonical_of_emits (hk : k.Storable) (p : Protocol) (program : Program)
    (h : ∀ c ∈ program.commands, k.Emits p c) (short : ∀ f ∈ program.fields, f.info.length < 0x10000) :
    program.Canonical := by
  intro c hc
  obtain ⟨name, line, a, b, compiled⟩ := h c hc
  exact k.compileNamed_canonical hk p name line a b c compiled
    fun f hf => short f (List.mem_flatMap.mpr ⟨c, hc, hf⟩)

theorem compileInstance_canonical (hk : k.Storable) (p : Protocol) (program : Program)
    (h : (k.compileInstance p).result = .ok program)
    (short : ∀ f ∈ program.fields, f.info.length < 0x10000) : program.Canonical :=
  k.canonical_of_emits hk p program (k.compileInstance_emits p program h) short

theorem compileSource_instance (source instantiation : Text) (file : Option Text) (program : Program)
    (h : k.compileSource source instantiation file = .ok program) :
    ∃ p, (k.compileInstance p).result = .ok program := by
  unfold compileSource at h
  obtain ⟨_, _, h⟩ := (Except.bind_eq_ok_iff _ _ _).mp h
  obtain ⟨p, _, h⟩ := (Except.bind_eq_ok_iff _ _ _).mp h
  obtain ⟨compiled, hp, h⟩ := (Except.bind_eq_ok_iff _ _ _).mp h
  obtain ⟨_, _, h⟩ := (Except.bind_eq_ok_iff _ _ _).mp h
  cases h
  exact ⟨p, hp⟩

theorem standard_storable {depth : Int} (table : FieldTable) (short : ∀ entry ∈ table, entry.2.length ≤ 0xFFFF) :
    Storable ⟨Format.standard, depth, some table⟩ where
  converter := Format.standard_inRange
  addresses := by
    intro t ht entry hentry
    cases ht
    exact Nat.lt_succ_of_le (short entry hentry)

/-- Whatever the source, a program compiled from it is canonical, and its commands with their operands come out of
the stream as they went in, provided that the addresses of the host and the infos of the formats are no longer
than the stream can say. -/
theorem compileSource_readable (table : FieldTable) (source instantiation : Text) (file : Option Text)
    (program : Program) (addresses : ∀ entry ∈ table, entry.2.length ≤ 0xFFFF)
    (compiled : compileSource { fields := some table } source instantiation file = .ok program)
    (infos : ∀ f ∈ program.fields, f.info.length ≤ 0xFFFF) :
    program.Canonical ∧
      ∃ bs q, program.pack = .ok bs ∧ Program.read bs = .ok q ∧ q.code = program.code := by
  obtain ⟨p, hp⟩ := compileSource_instance _ source instantiation file program compiled
  have canonical : program.Canonical :=
    compileInstance_canonical _ (standard_storable table addresses) p program hp
      fun f hf => Nat.lt_succ_of_le (infos f hf)
  have back := program.read_bytes canonical []
  rw [List.append_nil] at back
  exact ⟨canonical, program.bytes, _, program.pack_of_canonical canonical, back, program.code_withoutLine⟩

/-- A format that comes out of a variable, a field of the host, infos, an escape byte as an argument and in quotes, and
an event without a time. -/
theorem compileSource_readable_fields :
    let table : FieldTable := [("low".toList, [0x00, 0x03])]
    let source := "p \x7b set = \"%(low)[a-c]\"; in $1 \"\\x1b\" $set ?; out \"%d\"; event(0x0f); \x7d".toList
    let program : Program := ⟨[
      ⟨.input, 1, [.string [.literal [0x1B, 0x1B],
        .field ⟨⟨.string, '[', .empty, 0, -1, 4⟩, "[a-c]".toList, [0x61, 0x2D, 0x63, 0x00], some "low".toList,
          some [0x00, 0x03]⟩,
        .control .skip]]⟩,
      ⟨.output, 1, [.string [.field ⟨⟨.signed, 'd', .empty, 0, -1, 0⟩, ['d'], [], none, none⟩]]⟩,
      ⟨.event, 1, [.number 0x0F, .number 0]⟩]⟩
    compileSource { fields := some table } source "p(27)".toList none = .ok program ∧ program.Canonical ∧
      ∃ bs q, program.pack = .ok bs ∧ Program.read bs = .ok q ∧ q.code = program.code := by
  intro table source program
  have compiled : compileSource { fields := some table } source "p(27)".toList none = .ok program := by
    decide +kernel
  exact ⟨compiled, compileSource_readable table source _ none program (by decide) compiled (by decide)⟩

end Compiler
end DeviceProtocol
