import DeviceProtocol.Proofs.CompiledParts
set_option autoImplicit false

/-!
Compiled protocols in the stream. The numbers, the strings, the program and the handlers follow one another without
lengths in between, so whether they can be told apart depends on each of them telling where it ends. This is what
`Wire.Delimits` says; it carries over from the parts to the whole, and two protocols with the same bytes have the same
contents.
-/
namespace DeviceProtocol

namespace Wire

/-- Among the values of this kind, the bytes of one tell where they end, whatever comes behind them, and what of the
value is in view. -/
def Delimits {α β : Type} (kind : α → Prop) (bytes : α → Bytes) (view : α → β) : Prop :=
  ∀ a b, kind a → kind b → ∀ rest rest', bytes a ++ rest = bytes b ++ rest' → view a = view b ∧ rest = rest'

variable {α β : Type} {kind : α → Prop} {bytes : α → Bytes} {view : α → β}

theorem delimits_of_read (read : WireReader β)
    (h : ∀ a, kind a → ∀ rest, read (bytes a ++ rest) = .ok (view a, rest)) : Delimits kind bytes view := by
  intro a b ha hb rest rest' same
  have first := h a ha rest
  rw [same, h b hb rest', Except.ok.injEq, Prod.mk.injEq] at first
  exact ⟨first.1.symm, first.2.symm⟩

theorem Delimits.list (h : Delimits kind bytes view) (length : Nat) :
    Delimits (fun as : List α => as.length = length ∧ ∀ a ∈ as, kind a) (·.flatMap bytes) (·.map view) := by
  induction length with
  | zero =>
    intro as bs has hbs rest rest' same
    obtain rfl := List.length_eq_zero_iff.mp has.1
    obtain rfl := List.length_eq_zero_iff.mp hbs.1
    exact ⟨rfl, same⟩
  | succ length ih =>
    intro as bs has hbs rest rest' same
    obtain ⟨a, as, rfl⟩ := List.exists_cons_of_length_eq_add_one has.1
    obtain ⟨b, bs, rfl⟩ := List.exists_cons_of_length_eq_add_one hbs.1
    simp only [List.length_cons, Nat.add_right_cancel_iff, List.forall_mem_cons] at has hbs
    simp only [List.flatMap_cons, List.append_assoc] at same
    obtain ⟨front, back⟩ := h a b has.2.1 hbs.2.1 _ _ same
    obtain ⟨tail, ends⟩ := ih as bs ⟨has.1, has.2.2⟩ ⟨hbs.1, hbs.2.2⟩ rest rest' back
    exact ⟨congrArg₂ List.cons front tail, ends⟩

theorem Delimits.listUntil (h : Delimits kind bytes view) (stop : UInt8)
    (goes : ∀ a, kind a → ∀ rest rest', bytes a ++ rest ≠ stop :: rest') :
    Delimits (fun as : List α => ∀ a ∈ as, kind a) (fun as => as.flatMap bytes ++ [stop]) (·.map view) := by
  intro as
  induction as with
  | nil =>
    intro bs _ hbs rest rest' same
    cases bs with
    | nil => exact ⟨rfl, List.append_cancel_left same⟩
    | cons b bs =>
      simp only [List.flatMap_cons, List.append_assoc, List.flatMap_nil, List.nil_append, List.singleton_append] at same
      exact absurd same.symm (goes b (hbs b List.mem_cons_self) _ _)
  | cons a as ih =>
    intro bs has hbs rest rest' same
    cases bs with
    | nil =>
      simp only [List.flatMap_cons, List.append_assoc, List.flatMap_nil, List.nil_append, List.singleton_append] at same
      exact absurd same (goes a (has a List.mem_cons_self) _ _)
    | cons b bs =>
      simp only [List.flatMap_cons, List.append_assoc] at same
      rw [List.forall_mem_cons] at has hbs
      obtain ⟨front, back⟩ := h a b has.1 hbs.1 _ _ same
      obtain ⟨tail, ends⟩ := ih bs has.2 hbs.2 rest rest' (by simpa only [List.append_assoc] using back)
      exact ⟨congrArg₂ List.cons front tail, ends⟩

theorem delimits_text : Delimits (fun t : Text => Char.ofNat 0 ∉ t) zeroTerminated id :=
  delimits_of_read text text_zeroTerminated

theorem delimits_number : Delimits (fun n : Int => 0 ≤ n ∧ n ≤ maxNumber) (fun n => littleEndian 4 n.toNat) id := by
  have read : Delimits (fun n : Nat => n < capacity 4) (littleEndian 4) id :=
    delimits_of_read (number 4) (number_littleEndian 4)
  have top : maxNumber + 1 = (capacity 4 : Int) := rfl
  intro a b ha hb rest rest' same
  obtain ⟨value, ends⟩ := read a.toNat b.toNat (by omega) (by omega) rest rest' same
  rw [id, id] at value
  refine ⟨?_, ends⟩
  rw [id, id]
  omega

end Wire

theorem Instruction.delimits_string : Wire.Delimits CanonicalString stringBytes id := by
  have operand : Wire.Delimits (fun is => (Operand.string is).Canonical) (fun is => (Operand.string is).bytes)
      Operand.string :=
    Wire.delimits_of_read (Operand.read .string) fun is his rest =>
      Operand.read_spelled (.string is) _ rest (Operand.spelled_bytes _ his)
  intro is js his hjs rest rest' same
  obtain ⟨value, ends⟩ := operand is js his hjs rest rest' same
  exact ⟨Operand.string.inj value, ends⟩

namespace Program

theorem bytes_of_code (p : Program) :
    p.bytes = (p.code.flatMap fun c => c.1.code :: c.2.flatMap Operand.bytes) ++ [OpCode.stop.code] := by
  rw [bytes, code, List.flatMap_map]
  rfl

/-- The reader of programs does not say where it stops, but the bytes do not depend on what it leaves out. -/
theorem delimits_program : Wire.Delimits Canonical bytes code := by
  intro p q hp hq rest rest' same
  have read := read_bytes p hp rest
  rw [same, read_bytes q hq rest', Except.ok.injEq] at read
  have code : p.code = q.code := by rw [← p.code_withoutLine, ← q.code_withoutLine, read]
  refine ⟨code, ?_⟩
  rw [p.bytes_of_code, q.bytes_of_code, code] at same
  exact List.append_cancel_left same

end Program

namespace CompiledProtocol

structure Canonical (c : CompiledProtocol) : Prop where
  numbers : ∀ n ∈ c.settings.numbers, 0 ≤ n ∧ n ≤ maxNumber
  strings : ∀ is ∈ c.settings.strings, Instruction.CanonicalString is
  commands : c.commands.Canonical
  handlers : ∀ h ∈ c.handlers, (Char.ofNat 0 ∉ h.1 ∧ h.1 ≠ []) ∧ h.2.Canonical

theorem pack_of_canonical (c : CompiledProtocol) (h : c.Canonical) : c.pack = .ok c.bytes := by
  have fits : c.fits = true := by
    simp only [CompiledProtocol.fits, Bool.and_eq_true, List.all_eq_true]
    refine ⟨⟨⟨fun n hn => ?_, fun is his i hi => ?_⟩, ?_⟩, fun handler hh => ?_⟩
    · simpa [Settings.numberFits] using h.numbers n hn
    · exact i.fits_of_canonical ((h.strings is his).each i hi)
    · exact c.commands.fits_of_canonical h.commands
    · exact handler.2.fits_of_canonical (h.handlers handler hh).2
  rw [pack, if_pos fits]

theorem delimits_handlers :
    Wire.Delimits (fun hs : List (Text × Program) => ∀ h ∈ hs, (Char.ofNat 0 ∉ h.1 ∧ h.1 ≠ []) ∧ h.2.Canonical)
      (fun hs => hs.flatMap handlerBytes ++ [0]) (·.map fun h => (h.1, h.2.code)) := by
  -- the name of a handler is not empty, so the zero byte behind the handlers is none
  have handler : Wire.Delimits (fun h : Text × Program => (Char.ofNat 0 ∉ h.1 ∧ h.1 ≠ []) ∧ h.2.Canonical)
      handlerBytes fun h => (h.1, h.2.code) := by
    intro a b ha hb rest rest' same
    rw [handlerBytes, handlerBytes, List.append_assoc, List.append_assoc] at same
    obtain ⟨name, behind⟩ := Wire.delimits_text a.1 b.1 ha.1.1 hb.1.1 _ _ same
    obtain ⟨program, ends⟩ := Program.delimits_program a.2 b.2 ha.2 hb.2 _ _ behind
    exact ⟨Prod.ext name program, ends⟩
  -- a zero byte in front would be the end of an empty name
  refine handler.listUntil 0 fun h hh rest rest' same => hh.1.2 ?_
  rw [handlerBytes, List.append_assoc] at same
  exact (Wire.delimits_text h.1 [] hh.1.1 List.not_mem_nil _ rest' same).1

/-- The protocols differ at most in what the stream does not hold: their names, the lines that their commands come from,
and what to do with input beyond the expected. -/
structure Agrees (c d : CompiledProtocol) : Prop where
  numbers : c.settings.numbers = d.settings.numbers
  inTerminator : c.settings.inTerminator = d.settings.inTerminator
  outTerminator : c.settings.outTerminator = d.settings.outTerminator
  separator : c.settings.separator = d.settings.separator
  commands : c.commands.code = d.commands.code
  handlers : c.handlers.map (fun h => (h.1, h.2.code)) = d.handlers.map fun h => (h.1, h.2.code)

theorem agrees_of_bytes (c d : CompiledProtocol) (hc : c.Canonical) (hd : d.Canonical) (same : c.bytes = d.bytes) :
    c.Agrees d := by
  simp only [bytes, Settings.numberBytes, List.append_assoc] at same
  -- each part leaves the bytes behind it to the next one
  obtain ⟨numbers, same⟩ := Wire.delimits_number.list 6 c.settings.numbers d.settings.numbers ⟨rfl, hc.numbers⟩
    ⟨rfl, hd.numbers⟩ _ _ same
  obtain ⟨strings, same⟩ := Instruction.delimits_string.list 3 c.settings.strings d.settings.strings ⟨rfl, hc.strings⟩
    ⟨rfl, hd.strings⟩ _ _ same
  obtain ⟨commands, same⟩ := Program.delimits_program c.commands d.commands hc.commands hd.commands _ _ same
  obtain ⟨handlers, -⟩ := delimits_handlers c.handlers d.handlers hc.handlers hd.handlers [] []
    (by simpa only [List.append_nil] using same)
  simp only [List.map_id, Settings.strings, List.cons.injEq, and_true] at numbers strings
  exact ⟨numbers, strings.1, strings.2.1, strings.2.2, commands, handlers⟩

/-- A host with the standard formats delivers the protocol, and neither an address of the host nor the info of a format
is longer than the stream can say. -/
def Delivered (c : CompiledProtocol) : Prop :=
  ∃ depth table library tree file instantiation,
    (Host.compile ⟨⟨Format.standard, depth, some table⟩, library⟩ tree file instantiation).result = .ok c ∧
      (∀ entry ∈ table, entry.2.length ≤ 0xFFFF) ∧
      ∀ program ∈ c.programs, ∀ f ∈ program.fields, f.info.length ≤ 0xFFFF

theorem known_spelled : ∀ name ∈ knownHandlers, Char.ofNat 0 ∉ name ∧ name ≠ [] := by decide

theorem Delivered.canonical {c : CompiledProtocol} (h : c.Delivered) : c.Canonical := by
  obtain ⟨depth, table, library, tree, file, instantiation, compiled, addresses, infos⟩ := h
  obtain ⟨p, hp⟩ := Host.protocol_of_compile _ tree file instantiation c compiled
  obtain ⟨-, settings, handlers, -⟩ := (Compiler.compileProtocol_eq_ok_iff _ p c).mp hp
  obtain ⟨numbers, strings⟩ := Compiler.readSettings_values _ p c.settings settings
  have storable : Compiler.Storable ⟨Format.standard, depth, some table⟩ := Compiler.standard_storable table addresses
  have programs (program : Program) (mem : program ∈ c.programs) : program.Canonical :=
    Compiler.canonical_of_emits _ storable p program (Compiler.compileProtocol_emits _ p c hp program mem)
      fun f hf => Nat.lt_succ_of_le (infos program mem f hf)
  constructor
  · exact numbers
  · intro is his
    obtain rfl | ⟨b, value⟩ := strings is his
    · exact ⟨by simp, .nil⟩
    · -- variables are compiled without the fields of the host
      have alone : Compiler.Storable ⟨Format.standard, depth, none⟩ := ⟨storable.converter, by simp⟩
      refine Compiler.compileString_canonical _ alone p .plain b.value is value ?_
      simp [Compiler.stringValue_fields _ p b is value]
  · exact programs c.commands List.mem_cons_self
  · intro h mem
    have known := (Compiler.handlerPrograms_emits _ p c.handlers handlers h mem).1
    exact ⟨known_spelled h.1 known, programs h.2 (List.mem_cons_of_mem _ (List.mem_map_of_mem mem))⟩

/-- What hosts deliver has a place in the stream, and two protocols that are written in the same bytes agree in all
their numbers, terminators and separators, in their commands, and in their handlers. -/
theorem pack_unambiguous :
    (∀ c : CompiledProtocol, c.Delivered → ∃ bs, c.pack = .ok bs) ∧
      ∀ c d : CompiledProtocol, c.Delivered → d.Delivered → ∀ bs, c.pack = .ok bs → d.pack = .ok bs → c.Agrees d := by
  refine ⟨fun c hc => ⟨c.bytes, c.pack_of_canonical hc.canonical⟩, ?_⟩
  intro c d hc hd bs packed same
  rw [c.pack_of_canonical hc.canonical, Except.ok.injEq] at packed
  rw [d.pack_of_canonical hd.canonical, Except.ok.injEq] at same
  exact c.agrees_of_bytes d hc.canonical hd.canonical (packed.trans same.symm)

/-- Two protocols that are written differently, on other lines, with another name and another treatment of extra
input. -/
theorem pack_unambiguous_rewritten :
    let number : Instruction := .field ⟨⟨.signed, 'd', .empty, 0, -1, 0⟩, ['d'], [], none, none⟩
    let settings : Settings := { inTerminator := [.literal [0x0D]], outTerminator := [.literal [0x0D]] }
    let c : CompiledProtocol := ⟨['p'], settings, ⟨[⟨.output, 1, [.string [.literal [0x41], number]]⟩]⟩,
      [("@init".toList, ⟨[⟨.wait, 1, [.number 1]⟩]⟩)]⟩
    let d : CompiledProtocol := ⟨['q'], { settings with ignoreExtraInput := true },
      ⟨[⟨.output, 2, [.string [.literal [0x41], number]]⟩]⟩, [("@init".toList, ⟨[⟨.wait, 2, [.number 1]⟩]⟩)]⟩
    c.Delivered ∧ d.Delivered ∧ c.name ≠ d.name ∧ c.settings ≠ d.settings ∧ c.commands ≠ d.commands ∧
      c.pack = .ok d.bytes ∧ d.pack = .ok d.bytes ∧ c.Agrees d := by
  intro number settings c d
  have first : c.Delivered :=
    ⟨32, [], {},
      .ofFiles [(['a'], some (Text.utf8 "p\x7bterminator=CR;out \"A%d\";@init\x7bwait 1;\x7d\x7d".toList))],
      ['a'], ['p'], by decide +kernel, by decide, by decide⟩
  have second : d.Delivered :=
    ⟨1, [(['x'], [0])], {},
      .ofFiles [(['b'],
        some (Text.utf8 "extrainput=ignore;q\x7bterminator=13;\nout 65 \"%d\";@init\x7bwait 1;\x7d\x7d".toList))],
      ['b'], ['q'], by decide +kernel, by decide, by decide⟩
  have packed : c.pack = .ok d.bytes := by decide +kernel
  have same : d.pack = .ok d.bytes := by decide +kernel
  refine ⟨first, second, by decide, by decide, by decide, packed, same, ?_⟩
  exact pack_unambiguous.2 c d first second d.bytes packed same

end CompiledProtocol
end DeviceProtocol
