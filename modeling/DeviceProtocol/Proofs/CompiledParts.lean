import DeviceProtocol.Proofs.HostCompilation
import DeviceProtocol.Proofs.HostRequests
import DeviceProtocol.Proofs.StorablePrograms
set_option autoImplicit false

namespace DeviceProtocol

theorem Cell.Raw.field?_eq_none {c : Cell} (h : c.Raw) : c.toInstruction.field? = none := by
  cases c with
  | char c | byte b | control code => rfl
  | field f => exact h.elim

def CompiledProtocol.programs (c : CompiledProtocol) : List Program := c.commands :: c.handlers.map Prod.snd

namespace Compiler

variable (k : Compiler)

theorem compileString_fields (p : Protocol) (mode : Mode) (ts : List Token) (is : List Instruction)
    (h : (k.compileString p mode ts).result = .ok is) :
    ∀ f ∈ Instruction.fields is, mode ≠ .plain ∧ k.Compiles p.file mode f := by
  unfold compileString at h
  obtain ⟨cells, hc, h⟩ := (Traced.bind_eq_ok_iff _ _ _).mp h
  cases h
  intro f hf
  rw [Cell.toInstructions, Instruction.fields_merge] at hf
  obtain ⟨i, hi, hfield⟩ := List.mem_filterMap.mp hf
  obtain ⟨c, hmem, rfl⟩ := List.mem_map.mp hi
  obtain raw | ⟨formatted, g, rfl, field⟩ := k.compileLines_cells p mode 0 _ cells hc c hmem
  · rw [raw.field?_eq_none] at hfield
    cases hfield
  · cases hfield
    exact ⟨formatted, field⟩

theorem compileNamed_fields (p : Protocol) (name : Text) (line : Int) (a b : Arguments) (c : Command)
    (h : (k.compileNamed p name line a).result = .ok (c, b)) :
    ∀ f ∈ c.fields, ∃ mode, stringCommand? name = some (c.opcode, mode) ∧ k.Compiles p.file mode f := by
  obtain ⟨op, mode, is, hop, hs, rfl, -⟩ | ⟨op, n, -, -, rfl⟩ | ⟨os, -, hos, rfl⟩ | ⟨-, rfl, -⟩ :=
    k.compileNamed_cases p name line a b c h
  · intro f hf
    simp only [Command.fields, List.flatMap_cons, List.flatMap_nil, Operand.strings, List.append_nil] at hf
    exact ⟨mode, hop, (k.compileString_fields p mode a.rest is hs f hf).2⟩
  · simp [Command.fields, Operand.strings]
  · obtain ⟨mask, timeout, rfl⟩ := p.eventOperands_cases a b os hos
    simp [Command.fields, Operand.strings]
  · simp [Command.fields]

theorem stringValue_fields (p : Protocol) (b : Binding) (is : List Instruction) (h : k.StringValue p b is) :
    Instruction.fields is = [] := by
  refine List.eq_nil_iff_forall_not_mem.mpr fun f hf => ?_
  exact (compileString_fields _ p .plain b.value is h f hf).1 rfl

theorem handlerPrograms_emits (p : Protocol) (handlers : List (Text × Program))
    (h : (k.handlerPrograms p).result = .ok handlers) :
    ∀ e ∈ handlers, e.1 ∈ knownHandlers ∧ ∀ c ∈ e.2.commands, k.Emits p c := by
  refine Traced.flatMap_forall _ _ _ _ (fun name known entries h => ?_) h
  obtain ⟨compiled, hcompiled, h⟩ := (Traced.bind_eq_ok_iff _ _ _).mp h
  unfold handlerProgram at hcompiled
  obtain ⟨binding, -, hcompiled⟩ := (Traced.bind_eq_ok_iff _ _ _).mp hcompiled
  split at hcompiled
  · cases hcompiled
    cases h
    simp
  · split at hcompiled
    · cases hcompiled
      cases h
      simp
    · obtain ⟨program, hprogram, hcompiled⟩ := (Traced.bind_eq_ok_iff _ _ _).mp hcompiled
      rw [Traced.mapFault_eq_ok_iff] at hprogram
      cases hcompiled
      cases h
      rw [List.forall_mem_singleton]
      exact ⟨known, k.compileCommands_emits p _ program hprogram⟩

theorem numberSetting_range (p : Protocol) (name : String) (default n : Int)
    (fits : 0 ≤ default ∧ default ≤ maxNumber) (h : (numberSetting p name default).result = .ok n) :
    0 ≤ n ∧ n ≤ maxNumber := by
  obtain ⟨value, hvalue, h⟩ := (Traced.bind_eq_ok_iff _ _ _).mp h
  obtain ⟨-, rfl⟩ | ⟨b, -, m, rfl, m', -, small, same⟩ := (p.numberVariable_ok_iff _ value).mp hvalue
  · cases h
    exact fits
  · cases h
    omega

theorem stringSetting_cases (p : Protocol) (name : String) (default is : List Instruction)
    (h : (k.stringSetting p name default).result = .ok is) : is = default ∨ ∃ b, k.StringValue p b is := by
  obtain ⟨value, hvalue, h⟩ := (Traced.bind_eq_ok_iff _ _ _).mp h
  obtain ⟨-, rfl⟩ | ⟨b, -, js, rfl, hjs⟩ := (k.stringVariable_ok_iff p _ value).mp hvalue
  · cases h
    exact .inl rfl
  · cases h
    exact .inr ⟨b, hjs⟩

/-- Each number fits the stream, and each string is empty or that of a variable. -/
theorem readSettings_values (p : Protocol) (s : Settings) (h : (k.readSettings p).result = .ok s) :
    (∀ n ∈ s.numbers, 0 ≤ n ∧ n ≤ maxNumber) ∧ ∀ is ∈ s.strings, is = [] ∨ ∃ b, k.StringValue p b is := by
  obtain ⟨lock, hlock, h⟩ := (Traced.bind_eq_ok_iff _ _ _).mp h
  obtain ⟨write, hwrite, h⟩ := (Traced.bind_eq_ok_iff _ _ _).mp h
  obtain ⟨reply, hreply, h⟩ := (Traced.bind_eq_ok_iff _ _ _).mp h
  obtain ⟨read, hread, h⟩ := (Traced.bind_eq_ok_iff _ _ _).mp h
  obtain ⟨period, hperiod, h⟩ := (Traced.bind_eq_ok_iff _ _ _).mp h
  obtain ⟨input, hinput, h⟩ := (Traced.bind_eq_ok_iff _ _ _).mp h
  obtain ⟨both, hboth, h⟩ := (Traced.bind_eq_ok_iff _ _ _).mp h
  obtain ⟨inward, hinward, h⟩ := (Traced.bind_eq_ok_iff _ _ _).mp h
  obtain ⟨outward, houtward, h⟩ := (Traced.bind_eq_ok_iff _ _ _).mp h
  obtain ⟨separator, hseparator, h⟩ := (Traced.bind_eq_ok_iff _ _ _).mp h
  obtain ⟨extra, -, h⟩ := (Traced.bind_eq_ok_iff _ _ _).mp h
  cases h
  have reply_fits := numberSetting_range p _ _ reply (by decide) hreply
  -- the poll period that is not set is the reply timeout
  have poll_fits : 0 ≤ (period.map Int.ofNat).getD reply ∧ (period.map Int.ofNat).getD reply ≤ maxNumber := by
    obtain ⟨-, rfl⟩ | ⟨b, -, m, rfl, m', -, small, same⟩ := (p.numberVariable_ok_iff _ period).mp hperiod
    · exact reply_fits
    · simp only [Option.map_some, Option.getD_some, Int.ofNat_eq_natCast]
      omega
  -- the terminator of a direction that is not set is the common one
  have both_value := k.stringSetting_cases p _ [] both hboth
  have terminator (is : List Instruction) (h : is = both ∨ ∃ b, k.StringValue p b is) :
      is = [] ∨ ∃ b, k.StringValue p b is := by
    obtain rfl | own := h
    · exact both_value
    · exact .inr own
  simp only [Settings.numbers, Settings.strings, Settings.polling, List.forall_mem_cons, List.not_mem_nil,
    false_implies, implies_true, and_true]
  exact ⟨⟨numberSetting_range p _ _ lock (by decide) hlock, numberSetting_range p _ _ write (by decide) hwrite,
      reply_fits, numberSetting_range p _ _ read (by decide) hread, poll_fits,
      numberSetting_range p _ _ input (by decide) hinput⟩,
    terminator inward (k.stringSetting_cases p _ both inward hinward),
    terminator outward (k.stringSetting_cases p _ both outward houtward),
    k.stringSetting_cases p _ [] separator hseparator⟩

theorem compileProtocol_emits (p : Protocol) (c : CompiledProtocol) (h : (k.compileProtocol p).result = .ok c) :
    ∀ program ∈ c.programs, ∀ command ∈ program.commands, k.Emits p command := by
  obtain ⟨-, -, handlers, own⟩ := (k.compileProtocol_eq_ok_iff p c).mp h
  rw [CompiledProtocol.programs, List.forall_mem_cons, List.forall_mem_map]
  exact ⟨k.compileInstance_emits p c.commands own, fun e he => (k.handlerPrograms_emits p c.handlers handlers e he).2⟩

end Compiler

theorem Host.protocol_of_compile (h : Host) (tree : FileTree) (file instantiation : Text) (c : CompiledProtocol)
    (ok : (h.compile tree file instantiation).result = .ok c) :
    ∃ p, (h.compiler.compileProtocol p).result = .ok c := by
  rw [(h.compile_eq tree file instantiation).1] at ok
  obtain ⟨p, -, used⟩ := (Except.bind_eq_ok_iff _ _ _).mp ok
  obtain ⟨_, compiled, used⟩ := (Except.bind_eq_ok_iff _ _ _).mp used
  obtain ⟨_, -, used⟩ := (Except.bind_eq_ok_iff _ _ _).mp used
  cases used
  exact ⟨p, compiled⟩

end DeviceProtocol
