import DeviceProtocol.Proofs.SentArguments
import DeviceProtocol.Proofs.WrittenFiles
set_option autoImplicit false

namespace DeviceProtocol

/-- The text has no control characters, and none that mean something else in a string that is sent. -/
structure Text.Readable (t : Text) : Prop where
  printable : ∀ c ∈ t, 0x20 ≤ c.toNat ∧ ¬ (0x7F ≤ c.toNat ∧ c.toNat ≤ 0x9F)
  plain : ∀ c ∈ t, c ∉ ['\\', '"', '$', '%']

theorem Text.readable_iff (t : Text) :
    t.Readable ↔ t.all (fun c => 0x20 ≤ c.toNat && !(0x7F ≤ c.toNat && c.toNat ≤ 0x9F)) = true ∧
      t.all (fun c => !(['\\', '"', '$', '%'].contains c)) = true := by
  simp only [List.all_eq_true, Bool.and_eq_true, decide_eq_true_eq, Bool.not_eq_true', Bool.and_eq_false_iff,
    decide_eq_false_iff_not, List.contains_eq_mem]
  refine ⟨fun h => ⟨fun c hc => ?_, h.plain⟩, fun h => ⟨fun c hc => ?_, h.2⟩⟩
  · have := h.printable c hc
    omega
  · have := h.1 c hc
    omega

instance (t : Text) : Decidable t.Readable := decidable_of_iff _ t.readable_iff.symm

namespace Text.Readable

variable {t : Text} (h : t.Readable)

include h

theorem ne_backslash (c : Char) (hc : c ∈ t) : c ≠ '\\' := by
  rintro rfl
  exact h.plain _ hc (by decide)

theorem isPlain : t.all Grammar.isPlainChar = true := by
  rw [List.all_eq_true]
  intro c hc
  have newline : c ≠ '\n' := by
    rintro rfl
    exact absurd (h.printable _ hc).1 (by decide)
  have others := h.plain c hc
  simp only [List.mem_cons, List.not_mem_nil, or_false, not_or] at others
  simp [Grammar.isPlainChar, newline, others]

end Text.Readable

namespace ProtocolFile

def saying (t : Text) : Text := "p \x7b out \"".toList ++ t ++ "\"; \x7d".toList

theorem ofSource_saying (t : Text) (file : Option Text) (plain : t.all Grammar.isPlainChar = true) :
    ∃ f p, ofSource (saying t) file = .ok f ∧ f.instantiate ['p'] = .ok p ∧ p.bindings = [] ∧ p.name = ['p'] ∧
      p.file = file ∧ p.commands.line = 1 ∧ p.commands.value =
        [⟨.word, "out".toList, 1, none⟩, ⟨.string, t, 1, some .double⟩, ⟨.terminator, [';'], 1, none⟩] := by
  let c : Grammar.Command := ⟨⟨"out".toList, by decide, by decide⟩, ⟨.string t plain, []⟩⟩
  have text : saying t = single c := by
    unfold saying single
    simp [c, Grammar.Value.render, Grammar.Atom.render]
  rw [text]
  exact ofSource_single c file

end ProtocolFile

namespace Cell

theorem isForbidden_eq_false_iff (c : Char) : isForbidden c = false ↔ 0x20 ≤ c.toNat % 0x80 := by
  simp [isForbidden]

theorem ofQuoted_refused (front back : Text) (c : Char) (plain : ∀ d ∈ front, isForbidden d = false ∧ d ≠ '\\')
    (forbidden : isForbidden c = true) : ofQuoted (front ++ c :: back) = fault (.unexpectedByte c.toNat) := by
  have here : ofQuoted (c :: back) = fault (.unexpectedByte c.toNat) := by
    rw [ofQuoted, if_pos forbidden]
  rw [ofQuoted_plain front _ plain, here]
  rfl

end Cell

namespace Compiler

variable (k : Compiler) (p : Protocol) (line : Int)

theorem compileString_text (t : Text) (spelled : t ≠ []) (readable : t.Readable)
    (allowed : ∀ c ∈ t, 0x20 ≤ c.toNat % 0x80) :
    (k.compileString p .print [⟨.string, t, line, some .double⟩]).result = .ok [.literal t.utf8] := by
  have plain (c : Char) (hc : c ∈ t) : Cell.isForbidden c = false ∧ c ≠ '\\' :=
    ⟨(Cell.isForbidden_eq_false_iff c).mpr (allowed c hc), readable.ne_backslash c hc⟩
  have cells : Cell.ofQuoted t = .ok (t.map Cell.char) := by
    have whole := Cell.ofQuoted_plain t [] plain
    rw [List.append_nil, Cell.ofQuoted_nil] at whole
    simpa [Except.map] using whole
  have percent : .char '%' ∉ t.map Cell.char := by
    intro mem
    obtain ⟨c, hc, same⟩ := List.mem_map.mp mem
    cases same
    exact readable.plain _ hc (by decide)
  have encoded : (Traced.flatMap (k.encode p .print k.depthLimit.toNat)
      [.token ⟨.string, t, line, some .double⟩]).result = .ok (t.map Cell.char) := by
    rw [Traced.flatMap_eq_ok_iff]
    exact ⟨[t.map Cell.char], .cons ((k.encode_string_iff p _ _ _ _ rfl).mpr cells) .nil, by simp⟩
  -- without double quotes, these are the cells of an argument too
  have argument : t.map Cell.char = t.map Cell.ofArgument := by
    refine List.map_congr_left fun c hc => ?_
    rw [Cell.ofArgument, if_neg]
    rintro rfl
    exact readable.plain _ hc (by decide)
  rw [k.compileString_run p .print _ _ _ rfl percent encoded, argument, Cell.toInstructions_argument, if_neg spelled]

theorem compileString_refused (front back : Text) (c : Char)
    (plain : ∀ d ∈ front, Cell.isForbidden d = false ∧ d ≠ '\\') (forbidden : Cell.isForbidden c = true) :
    (k.compileString p .print [⟨.string, front ++ c :: back, line, some .double⟩]).result =
      .error (.fault { cause := .unexpectedByte c.toNat, line := some line, file := p.file }) := by
  let e : Failure := .fault { cause := .unexpectedByte c.toNat, line := some line, file := p.file }
  have item : (k.encode p .print k.depthLimit.toNat (.token ⟨.string, front ++ c :: back, line, some .double⟩)).result =
      .error e := by
    rw [encode]
    show ((Traced.ofExcept (Cell.ofQuoted (front ++ c :: back))).mapFault _).result = _
    rw [Cell.ofQuoted_refused front back c plain forbidden]
    rfl
  have run : (k.compileLine p .print 0 [.token ⟨.string, front ++ c :: back, line, some .double⟩]).result = .error e :=
    Traced.bind_of_error _ _ e (Traced.bind_of_error _ _ e item)
  exact Traced.bind_of_error _ _ e (Traced.bind_of_error _ _ e run)

theorem compileSource_saying (table : FieldTable) (hk : k.fields = some table) (t : Text) (file : Option Text)
    (plain : t.all Grammar.isPlainChar = true) :
    ∃ p : Protocol, p.file = file ∧
      k.compileSource (ProtocolFile.saying t) ['p'] file =
        (((k.compileString p .print [⟨.string, t, 1, some .double⟩]).mapFault fun f =>
          (f.locate (some 1) file).addNote (some 1) (.inCommand "out".toList)).mapFault fun f =>
          (f.locate (some 1) file).addNote (some 1) (.inProtocol ['p'])).result.map
          fun is => ⟨[⟨.output, 1, [.string is]⟩]⟩ := by
  obtain ⟨f, p, hf, hp, bare, name, place, line, only⟩ := ProtocolFile.ofSource_saying t file plain
  let command : CompleteCommand := {
    word := ⟨.word, "out".toList, 1, none⟩
    arguments := [⟨.string, t, 1, some .double⟩]
    stop := ⟨.terminator, [';'], 1, none⟩
    named := rfl
    inside := by simp
    stops := rfl }
  have handlers : ∀ b ∈ p.bindings, b.isHandler = false := by simp [bare]
  have first : command.arguments.takeWhile Token.isBlank = [] := by simp [command, Token.isBlank, Token.isSpecial]
  have own := k.compileInstance_out table p 1 hk handlers command rfl first only
  rw [place, line, name] at own
  exact ⟨p, place, (k.compileSource_of_no_handlers p _ _ file f hf hp handlers).trans own⟩

def refusal (c : Char) (file : Option Text) : Failure := .fault {
  cause := .unexpectedByte c.toNat
  line := some 1
  file := file
  notes := [(some 1, .inCommand "out".toList), (some 1, .inProtocol ['p'])] }

theorem compileSource_refuses (table : FieldTable) (hk : k.fields = some table) (front back : Text) (c : Char)
    (readable : Text.Readable (front ++ c :: back)) (allowed : ∀ d ∈ front, 0x20 ≤ d.toNat % 0x80)
    (forbidden : c.toNat % 0x80 < 0x20) (file : Option Text) :
    k.compileSource (ProtocolFile.saying (front ++ c :: back)) ['p'] file = .error (refusal c file) := by
  have plain (d : Char) (hd : d ∈ front) : Cell.isForbidden d = false ∧ d ≠ '\\' :=
    ⟨(Cell.isForbidden_eq_false_iff d).mpr (allowed d hd), readable.ne_backslash d (List.mem_append_left _ hd)⟩
  obtain ⟨p, rfl, compiled⟩ := k.compileSource_saying table hk _ file readable.isPlain
  rw [compiled, Traced.mapFault, Traced.mapFault,
    k.compileString_refused p 1 front back c plain (by simpa [Cell.isForbidden] using forbidden)]
  simp [Except.mapError, Except.map, Failure.mapFault, Fault.locate, Fault.addNote, refusal]

/-- A text that can be read is sent as its bytes exactly if no character of it has the low seven bits of a control
character; otherwise it is refused for the first one that has. -/
theorem compileSource_sends_text (table : FieldTable) (hk : k.fields = some table) (t : Text) (spelled : t ≠ [])
    (readable : t.Readable) (file : Option Text) :
    (k.compileSource (ProtocolFile.saying t) ['p'] file = .ok ⟨[⟨.output, 1, [.string [.literal t.utf8]]⟩]⟩ ↔
        ∀ c ∈ t, 0x20 ≤ c.toNat % 0x80) ∧
      ∀ front c back, t = front ++ c :: back → (∀ d ∈ front, 0x20 ≤ d.toNat % 0x80) → c.toNat % 0x80 < 0x20 →
        k.compileSource (ProtocolFile.saying t) ['p'] file = .error (refusal c file) := by
  refine ⟨⟨fun sent => ?_, fun allowed => ?_⟩, ?_⟩
  · -- the search stops at the character that compilation stops at
    cases found : t.find? Cell.isForbidden with
    | none =>
      intro c hc
      rw [← Cell.isForbidden_eq_false_iff]
      simpa using List.find?_eq_none.mp found c hc
    | some c =>
      obtain ⟨forbidden, front, back, rfl, before⟩ := List.find?_eq_some_iff_append.mp found
      have allowed (d : Char) (hd : d ∈ front) : 0x20 ≤ d.toNat % 0x80 :=
        (Cell.isForbidden_eq_false_iff d).mp (by simpa using before d hd)
      rw [k.compileSource_refuses table hk front back c readable allowed (by simpa [Cell.isForbidden] using forbidden)]
        at sent
      cases sent
  · obtain ⟨p, -, compiled⟩ := k.compileSource_saying table hk t file readable.isPlain
    rw [compiled, Traced.mapFault, Traced.mapFault, k.compileString_text p 1 t spelled readable allowed]
    rfl
  · rintro front c back rfl allowed forbidden
    exact k.compileSource_refuses table hk front back c readable allowed forbidden file

/-- Letters beyond ASCII that pass the check, and a text of which the third character does not. -/
theorem compileSource_sends_text_letters :
    let sent : Text := "Größe 5 Ω".toList
    let refused : Text := "5 č".toList
    sent.Readable ∧ refused.Readable ∧
      compileSource {} (ProtocolFile.saying sent) ['p'] none = .ok ⟨[⟨.output, 1, [.string [.literal sent.utf8]]⟩]⟩ ∧
      compileSource {} (ProtocolFile.saying refused) ['p'] none = .error (refusal 'č' none) := by
  intro sent refused
  have first : sent.Readable := by decide
  have second : refused.Readable := by decide
  have allowed : sent.all (fun c => 0x20 ≤ c.toNat % 0x80) = true := by decide
  have before : ("5 ".toList).all (fun c => 0x20 ≤ c.toNat % 0x80) = true := by decide
  simp only [List.all_eq_true, decide_eq_true_eq] at allowed before
  refine ⟨first, second, ?_, ?_⟩
  · exact (compileSource_sends_text {} [] rfl sent (by decide) first none).1.mpr allowed
  · exact (compileSource_sends_text {} [] rfl refused (by decide) second none).2 "5 ".toList 'č' [] rfl before
      (by decide)

/-- A single letter that cannot be sent. -/
theorem compileSource_refuses_letter :
    Text.Readable ['č'] ∧
      compileSource {} "p \x7b out \"č\"; \x7d".toList ['p'] none = .error (.fault {
        cause := .unexpectedByte 0x10D
        line := some 1
        notes := [(some 1, .inCommand "out".toList), (some 1, .inProtocol ['p'])] }) := by
  decide +kernel

end Compiler
end DeviceProtocol
