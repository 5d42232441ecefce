import DeviceProtocol.Proofs.CompiledParts
set_option autoImplicit false

namespace DeviceProtocol

/-- The engine can use the field of a host that has these fields. -/
structure Field.Legal (table : FieldTable) (f : Field) : Prop where
  named : ∀ name, f.name = some name → ∃ address, table.lookup name = some address ∧ f.address = some address ∧
    f.format.type ≠ .pseudo ∧ f.format.type ≠ .none ∧ f.format.flags.skips = false
  unnamed : f.name = none → f.address = none
  info : f.info ≠ [] ↔ f.format.conversion ∈ ['[', '\x7b', '<']
  closed : f.info ≠ [] → f.info.getLast? = some 0
  infoLength : f.format.infoLength = f.info.length

/-- All fields of the program are legal, and only those of input are thrown away. -/
structure Program.Legal (table : FieldTable) (p : Program) : Prop where
  fields : ∀ f ∈ p.fields, f.Legal table
  skipped : ∀ c ∈ p.commands, ∀ f ∈ c.fields, f.format.flags.skips = true → c.opcode = .input

theorem Format.info_ne_nil_iff (conversion : Char) (source rest after : Text) (bs : Bytes)
    (h : info conversion source rest = .ok (bs, after)) : bs ≠ [] ↔ conversion ∈ ['[', '\x7b', '<'] := by
  have spelled (t : Text) : Wire.zeroTerminated t ≠ [] := by simp [Wire.zeroTerminated]
  unfold info at h
  split at h
  · unfold charSet at h
    dsimp only at h
    split at h
    · cases h
      simp [spelled]
    · cases h
  · unfold choices at h
    split at h
    · split at h
      · cases h
      · cases h
        simp [spelled]
    · cases h
  · unfold checksum at h
    split at h
    · dsimp only at h
      split at h
      · cases h
        simp [spelled]
      · cases h
    · cases h
  · cases h
    simp_all

theorem stringCommand?_scan (name : Text) (op : OpCode) (h : stringCommand? name = some (op, .scan)) :
    op = .input := by
  unfold stringCommand? at h
  split at h
  · cases h
  · split at h
    · cases h
      rfl
    · split at h
      · cases h
      · cases h

namespace Compiler

theorem closeInfo_eq_nil_iff (info : Bytes) : closeInfo info = [] ↔ info = [] := by
  unfold closeInfo
  split
  · rfl
  · rfl
  · rename_i last
    have spelled : info ≠ [] := by
      rintro rfl
      cases last
    simp [spelled]

theorem closeInfo_closed (info : Bytes) (h : closeInfo info ≠ []) : (closeInfo info).getLast? = some 0 := by
  unfold closeInfo at h ⊢
  split at h <;> simp_all

theorem illegal?_eq_none (name : Option Text) (d : Descriptor) (h : illegal? name d = none) :
    d.type ≠ .none ∧ ∀ n, name = some n → d.type ≠ .pseudo ∧ d.flags.skips = false := by
  unfold illegal? at h
  split at h
  · cases h
  · rename_i typed
    refine ⟨typed, ?_⟩
    rintro n rfl
    dsimp only at h
    split at h
    · cases h
    · rename_i value
      split at h
      · cases h
      · rename_i kept
        exact ⟨value, by simpa using kept⟩

variable {k : Compiler} {table : FieldTable} (standard : k.converter = Format.standard) (known : k.fields = some table)

include standard known

theorem Compiles.legal {file : Option Text} {mode : Mode} {f : Field} (h : k.Compiles file mode f) :
    f.Legal table ∧ (f.format.flags.skips = true → mode = .scan) := by
  obtain ⟨line, source, n, -, h⟩ := h
  obtain ⟨target, text, c, ht, hc, legal, rfl⟩ := k.compileFormat_cases line file mode source f n h
  rw [standard] at hc
  obtain ⟨cs, width, precision, conversion, type, tail, after, -, -, -, -, -, -, skips, hi, descriptor, -⟩ :=
    Format.standard_cases text mode c hc
  obtain ⟨typed, named⟩ := illegal?_eq_none _ _ legal
  refine ⟨⟨?_, ?_, ?_, closeInfo_closed c.info, rfl⟩, ?_⟩
  · -- a name comes with an address of the table, and then the conversion has been looked at
    intro name hname
    obtain ⟨rfl, -⟩ | ⟨_, field, _, address, fields, -, -, htable, hlookup, rfl⟩ :=
      k.splitField_cases source text target ht
    · cases hname
    · cases hname
      cases known.symm.trans htable
      obtain ⟨value, kept⟩ := named field rfl
      exact ⟨address, hlookup, rfl, value, typed, kept⟩
  · intro unnamed
    rw [Option.map_eq_none_iff] at unnamed
    simp [unnamed]
  · rw [Ne, closeInfo_eq_nil_iff, ← Ne, Format.info_ne_nil_iff conversion text tail after c.info hi, descriptor]
  · rw [descriptor]
    exact skips

theorem Emits.legal {p : Protocol} {c : Command} (h : k.Emits p c) :
    ∀ f ∈ c.fields, f.Legal table ∧ (f.format.flags.skips = true → c.opcode = .input) := by
  intro f hf
  obtain ⟨name, line, a, b, h⟩ := h
  obtain ⟨mode, command, compiled⟩ := k.compileNamed_fields p name line a b c h f hf
  obtain ⟨legal, skips⟩ := compiled.legal standard known
  refine ⟨legal, fun skipped => ?_⟩
  rw [skips skipped] at command
  exact stringCommand?_scan name c.opcode command

theorem legal_of_emits (p : Protocol) (program : Program) (h : ∀ c ∈ program.commands, k.Emits p c) :
    program.Legal table where
  fields := by
    intro f hf
    obtain ⟨c, hc, hf⟩ := List.mem_flatMap.mp hf
    exact ((h c hc).legal standard known f hf).1
  skipped := fun c hc f hf => ((h c hc).legal standard known f hf).2

omit standard known

/-- Whatever is compiled for a host with a table of fields, all fields in it are legal: in the program of a source, and
in the program and the handlers of a protocol with its settings, whose strings have no fields. -/
theorem compiled_fields_legal (depth : Int) (table : FieldTable) :
    let k : Compiler := ⟨Format.standard, depth, some table⟩
    (∀ source instantiation file program, k.compileSource source instantiation file = .ok program →
      program.Legal table) ∧
    ∀ library tree file instantiation c, (Host.compile ⟨k, library⟩ tree file instantiation).result = .ok c →
      (∀ program ∈ c.programs, program.Legal table) ∧ ∀ is ∈ c.settings.strings, Instruction.fields is = [] := by
  intro k
  constructor
  · intro source instantiation file program compiled
    obtain ⟨p, hp⟩ := k.compileSource_instance source instantiation file program compiled
    exact legal_of_emits rfl rfl p program (k.compileInstance_emits p program hp)
  · intro library tree file instantiation c compiled
    obtain ⟨p, hp⟩ := Host.protocol_of_compile ⟨k, library⟩ tree file instantiation c compiled
    obtain ⟨-, settings, -, -⟩ := (k.compileProtocol_eq_ok_iff p c).mp hp
    refine ⟨fun program hprogram => ?_, fun is his => ?_⟩
    · exact legal_of_emits rfl rfl p program (k.compileProtocol_emits p c hp program hprogram)
    · obtain rfl | ⟨b, value⟩ := (k.readSettings_values p c.settings settings).2 is his
      · rfl
      · exact k.stringValue_fields p b is value

/-- A field whose name and format come out of different tokens, a checksum, a field that is skipped, an enumeration, and
a handler. -/
theorem compiled_fields_legal_named :
    let table : FieldTable := [("low".toList, [0x00, 0x03])]
    let source := ("p\x7bterminator=CR;x=\"%(low)\";out $x \"[a]%<xor>\";" ++
      "in \"%*d %\x7bA|B\x7d\" $x \"d\";@init\x7bexec \"%s\";\x7d\x7d").toList
    let tree := FileTree.ofFiles [(['a'], some (Text.utf8 source))]
    let low (type : FormatType) (conversion : Char) (source : String) (info : Bytes) : Instruction :=
      .field ⟨⟨type, conversion, .empty, 0, -1, info.length⟩, source.toList, info, some "low".toList, some [0x00, 0x03]⟩
    let plain (type : FormatType) (conversion : Char) (flags : Flags) (source : String) (info : Bytes) : Instruction :=
      .field ⟨⟨type, conversion, flags, 0, -1, info.length⟩, source.toList, info, none, none⟩
    let c : CompiledProtocol := {
      name := ['p']
      settings := { inTerminator := [.literal [0x0D]], outTerminator := [.literal [0x0D]] }
      commands := ⟨[
        ⟨.output, 1, [.string [low .string '[' "[a]" [0x61, 0x00],
          plain .pseudo '<' .empty "<xor>" [0x78, 0x6F, 0x72, 0x00]]]⟩,
        ⟨.input, 1, [.string [plain .signed 'd' .skip "*d" [], .literal [0x20],
          plain .enum '\x7b' .empty "\x7bA|B\x7d" [0x41, 0x00, 0x42, 0x00], low .signed 'd' "d" []]]⟩]⟩
      handlers := [("@init".toList, ⟨[⟨.exec, 1, [.string [plain .string 's' .empty "s" []]]⟩]⟩)] }
    compileSource { fields := some table } source ['p'] none = .ok c.commands ∧ c.commands.Legal table ∧
      (Host.compile ⟨{ fields := some table }, {}⟩ tree ['a'] ['p']).result = .ok c ∧
      (∀ program ∈ c.programs, program.Legal table) ∧ ∀ is ∈ c.settings.strings, Instruction.fields is = [] := by
  intro table source tree low plain c
  have alone : compileSource { fields := some table } source ['p'] none = .ok c.commands := by decide +kernel
  have hosted : (Host.compile ⟨{ fields := some table }, {}⟩ tree ['a'] ['p']).result = .ok c := by decide +kernel
  obtain ⟨sources, hosts⟩ := compiled_fields_legal 32 table
  exact ⟨alone, sources source ['p'] none c.commands alone, hosted, hosts {} tree ['a'] ['p'] c hosted⟩

end Compiler
end DeviceProtocol
