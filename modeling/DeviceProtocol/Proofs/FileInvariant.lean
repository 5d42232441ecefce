import Mathlib.Data.List.Nodup
import DeviceProtocol.Proofs.KnownHandlers
import DeviceProtocol.Proofs.UnrelatedProtocols
set_option autoImplicit false

namespace DeviceProtocol

/-- An argument of a command is neither the end of a command nor the end of the source, and it is no character that
ends a value, assigns one, or stands around a block. -/
structure Token.IsArgument (t : Token) : Prop where
  terminator : t.kind ≠ .terminator
  eof : t.kind ≠ .eof
  special : t.kind = .special → t.text ∉ [[';'], ['\x7b'], ['\x7d'], ['=']]

/-- The tokens of one command: its name, its arguments without blanks at either end, and its end. -/
structure Segment where
  word : Token
  arguments : List Token
  stop : Token
  named : word.kind = .word
  proper : ∀ t ∈ arguments, t.IsArgument
  first : ∀ t ∈ arguments.head?, t.isBlank = false
  last : ∀ t ∈ arguments.getLast?, t.isBlank = false
  stops : stop.kind = .terminator

def Segment.tokens (g : Segment) : List Token := g.word :: g.arguments ++ [g.stop]

/-- The tokens are those of commands, one behind the other. -/
def Segmented (ts : List Token) : Prop := ∃ segments : List Segment, ts = segments.flatMap Segment.tokens

theorem segmented_nil : Segmented [] := ⟨[], rfl⟩

theorem Segmented.append {ts us : List Token} (ht : Segmented ts) (hu : Segmented us) : Segmented (ts ++ us) := by
  obtain ⟨front, rfl⟩ := ht
  obtain ⟨back, rfl⟩ := hu
  exact ⟨front ++ back, by rw [List.flatMap_append]⟩

namespace Scanner

theorem readToken_kind (set : Specials) (eofAllowed : Bool) (s s' : Scanner) (t : Token)
    (h : readToken set eofAllowed s = .ok t s') : t.kind ≠ .terminator := by
  rcases readToken_ok_cases set eofAllowed s s' t h with
    ⟨quote, s₁, string⟩ | reference | ⟨rfl, -⟩ | ⟨c, s₁, -, -, -, -, ⟨-, rfl, -⟩ | ⟨-, rfl, -⟩⟩
  · rw [(readString_ok quote s₁ s' t string).1]
    decide
  · rw [reference]
    decide
  · simp
  · simp
  · simp

theorem readRawValue_arguments (s : Scanner) : ∀ t ∈ (readRawValue s).1, t.IsArgument := by
  fun_induction readRawValue s with
  | case5 s t s₁ token opens ends closes ts ending rest ih =>
    rw [rest] at ih
    have eof : t.kind ≠ .eof := by
      rcases readToken_ok _ _ _ _ _ token with h | h
      · simp at h
      · exact h.1
    refine List.forall_mem_cons.mpr ⟨⟨readToken_kind _ _ _ _ _ token, eof, ?_⟩, ih⟩
    intro special text
    simp only [List.mem_cons, List.not_mem_nil, or_false] at text
    rcases text with text | text | text | text <;>
      simp [Token.isSpecial, special, text, Text.occursIn] at opens ends closes
  | _ => simp

end Scanner

open Scanner (dropTrailingBlanks)

theorem dropTrailingBlanks_prefix (ts : List Token) : dropTrailingBlanks ts <+: ts := by
  have suffix := (List.dropWhile_suffix Token.isBlank (l := ts.reverse)).reverse
  rwa [List.reverse_reverse] at suffix

theorem not_blank_of_head?_dropWhile (ts : List Token) (t : Token) (h : (ts.dropWhile Token.isBlank).head? = some t) :
    t.isBlank = false := by
  have first := List.head?_dropWhile_not Token.isBlank ts
  rwa [h] at first

theorem not_blank_of_getLast?_dropTrailingBlanks (ts : List Token) (t : Token)
    (h : (dropTrailingBlanks ts).getLast? = some t) : t.isBlank = false := by
  rw [dropTrailingBlanks, List.getLast?_reverse] at h
  exact not_blank_of_head?_dropWhile _ t h

namespace Scanner

theorem readLazyValue_arguments (s s' : Scanner) (ts : List Token) (h : readLazyValue s = .ok ts s') :
    (∀ t ∈ ts, t.IsArgument) ∧ (∀ t ∈ ts.head?, t.isBlank = false) ∧ ∀ t ∈ ts.getLast?, t.isBlank = false := by
  have raw := readRawValue_arguments s
  rw [readLazyValue] at h
  split at h
  · next tokens s₁ hv =>
    rw [hv] at raw
    cases h
    have front := dropTrailingBlanks_prefix (tokens.dropWhile Token.isBlank)
    refine ⟨?_, ?_, ?_⟩
    · intro t ht
      exact raw t (List.dropWhile_subset _ (front.subset ht))
    · intro t ht
      refine not_blank_of_head?_dropWhile tokens t ?_
      obtain ⟨rest, hr⟩ := front
      rw [← hr, List.head?_append, ht]
      rfl
    · exact not_blank_of_getLast?_dropTrailingBlanks _
  · cases h

theorem readCommand_segmented (protocols : List Protocol) (name : Text) (line : Int) (after : Option Char)
    (s s' : Scanner) (ts : List Token) (hp : ∀ p ∈ protocols, Segmented p.commands.value)
    (h : readCommand protocols name line after s = .ok ts s') : Segmented ts := by
  rw [readCommand] at h
  split at h
  · next tokens inlined =>
    cases h
    rw [inlined?_eq] at inlined
    obtain ⟨p, found, rfl⟩ := Option.map_eq_some_iff.mp inlined
    split at found
    · exact hp p (ProtocolFile.mem_of_findIn found)
    · cases found
  · split at h
    · next arguments s₁ value =>
      cases h
      obtain ⟨proper, first, last⟩ := readLazyValue_arguments _ _ arguments (noted_eq_ok _ _ _ _ _ value)
      let segment : Segment :=
        ⟨⟨.word, name, line, none⟩, arguments, ⟨.terminator, [';'], s'.line, none⟩, rfl, proper, first, last, rfl⟩
      exact ⟨[segment], by simp [segment, Segment.tokens]⟩
    · cases h

theorem readHandler_segmented (protocols : List Protocol) (s s' : Scanner) (ts : List Token)
    (hp : ∀ p ∈ protocols, Segmented p.commands.value) (h : readHandler protocols s = .ok ts s') : Segmented ts := by
  fun_induction readHandler protocols s generalizing ts with
  | case2 => cases h; exact segmented_nil
  | case3 => cases h; exact segmented_nil
  | case10 s name line after s₁ head _ _ _ command s₂ hc commands s₃ hr ih =>
    cases h
    exact (readCommand_segmented protocols name line after s₁ s₂ command hp hc).append (ih commands hr)
  | _ => simp [fail] at h

theorem readParameters_nodup (protocol : Text) (names names' : List Text) (s s' : Scanner) (distinct : names.Nodup)
    (h : readParameters protocol names s = .ok names' s') : names'.length ≤ maxParameters ∧ names'.Nodup := by
  fun_induction readParameters protocol names s with
  | case3 names s t s₁ token close few =>
    cases h
    exact ⟨by omega, distinct⟩
  | case4 names s t s₁ token close blank ih => exact ih distinct h
  | case6 names s t s₁ token close blank word new ih =>
    refine ih ?_ h
    rw [← List.concat_eq_append]
    exact distinct.concat (by simpa using new)
  | _ => simp [fail] at h

theorem readHead_named_ne_nil (eofAllowed : Bool) (s s' : Scanner) (name : Text) (line : Int) (after : Option Char)
    (h : readHead eofAllowed s = .ok (.named name line after) s') : name ≠ [] := by
  fun_induction readHead eofAllowed s with
  | case3 s t s₁ token eof blank ih => exact ih h
  | case7 s t s₁ token eof _ _ _ _ word =>
    cases h
    intro empty
    simp [startsStatement, empty] at word
  | _ => simp [fail] at h

end Scanner

theorem Text.lower_ne_nil (name : Text) (h : name ≠ []) : Text.lower name ≠ [] := by
  cases name with
  | nil => exact absurd rfl h
  | cons c cs =>
    rw [Text.lower, Text.lowerAfter]
    split
    · simp
    · simp [lowerChar_ne_nil]

namespace Protocol

/-- The commands have no name, every other binding has one of its own, there are at most nine parameters with different
names, and commands and handlers are made of segments. -/
structure WellFormed (p : Protocol) : Prop where
  unnamed : p.commands.name = []
  named : ∀ b ∈ p.bindings, b.name ≠ []
  distinct : (p.bindings.map Binding.name).Nodup
  parameters : p.parameters.length ≤ maxParameters ∧ p.parameters.Nodup
  commands : Segmented p.commands.value
  handlers : ∀ b ∈ p.bindings, b.isHandler = true → Segmented b.value

theorem assign_names (p : Protocol) (name : Text) (line : Int) (value : List Token) :
    (p.assign name line value).bindings.map Binding.name =
      if Text.lower name ∈ p.bindings.map Binding.name then p.bindings.map Binding.name
      else p.bindings.map Binding.name ++ [Text.lower name] := by
  have keep (bs : List Binding) (g : Binding → Binding) (hg : ∀ b, (g b).name = b.name) :
      (bs.map g).map Binding.name = bs.map Binding.name := by
    rw [List.map_map]
    exact List.map_congr_left fun b _ => hg b
  have valued (b : Binding) : (if b.name = Text.lower name then { b with value := value } else b).name = b.name := by
    split <;> rfl
  have placed (b : Binding) : (if b.name = Text.lower name then { b with line := line } else b).name = b.name := by
    split <;> rfl
  simp only [assign]
  rw [keep _ _ valued, declare]
  by_cases known : Text.lower name ∈ p.bindings.map Binding.name
  · have bound : (p.bindings.any fun b => b.name == Text.lower name) = true := by simpa using known
    rw [if_pos bound, if_pos known, keep _ _ placed]
  · have unbound : ¬ (p.bindings.any fun b => b.name == Text.lower name) = true := by simpa using known
    rw [if_neg unbound, if_neg known, List.map_append]
    rfl

theorem value_of_mem_assign (p : Protocol) (name : Text) (line : Int) (value : List Token) (b : Binding)
    (h : b ∈ (p.assign name line value).bindings) :
    (b.name = Text.lower name ∧ b.value = value) ∨ b ∈ p.bindings := by
  obtain ⟨d, hd, rfl⟩ := List.mem_map.mp h
  by_cases same : d.name = Text.lower name
  · exact .inl (by simp [same])
  · refine .inr ?_
    rw [if_neg same]
    rw [declare] at hd
    split at hd
    · obtain ⟨c, hc, rfl⟩ := List.mem_map.mp hd
      by_cases old : c.name = Text.lower name
      · simp [old] at same
      · rwa [if_neg old]
    · rcases List.mem_append.mp hd with hd | hd
      · exact hd
      · cases List.mem_singleton.mp hd
        exact absurd rfl same

theorem assign_commands (p : Protocol) (name : Text) (line : Int) (value : List Token) :
    (p.assign name line value).commands = p.commands := by
  simp only [assign, declare]
  split <;> rfl

theorem assign_parameters (p : Protocol) (name : Text) (line : Int) (value : List Token) :
    (p.assign name line value).parameters = p.parameters := by
  simp only [assign, declare]
  split <;> rfl

theorem touch_names (p : Protocol) (uses : List Use) :
    (p.touch uses).bindings.map Binding.name = p.bindings.map Binding.name := by
  rw [touch, List.map_map]
  rfl

variable {p : Protocol}

theorem WellFormed.assign (hp : p.WellFormed) (name : Text) (line : Int) (value : List Token) (spelled : name ≠ [])
    (handler : isHandlerName (Text.lower name) = true → Segmented value) : (p.assign name line value).WellFormed where
  unnamed := by
    rw [assign_commands]
    exact hp.unnamed
  named := by
    intro b hb
    rcases p.value_of_mem_assign name line value b hb with ⟨same, -⟩ | hb
    · rw [same]
      exact Text.lower_ne_nil name spelled
    · exact hp.named b hb
  distinct := by
    rw [assign_names]
    split
    · exact hp.distinct
    · next new =>
      rw [← List.concat_eq_append]
      exact hp.distinct.concat new
  parameters := by
    rw [assign_parameters]
    exact hp.parameters
  commands := by
    rw [assign_commands]
    exact hp.commands
  handlers := by
    intro b hb hh
    rcases p.value_of_mem_assign name line value b hb with ⟨same, hv⟩ | hb
    · rw [hv]
      refine handler ?_
      rw [← same]
      exact hh
    · exact hp.handlers b hb hh

theorem WellFormed.touch (hp : p.WellFormed) (uses : List Use) : (p.touch uses).WellFormed where
  unnamed := hp.unnamed
  named := by
    intro b hb
    obtain ⟨c, hc, rfl⟩ := List.mem_map.mp hb
    exact hp.named c hc
  distinct := by
    rw [touch_names]
    exact hp.distinct
  parameters := hp.parameters
  commands := hp.commands
  handlers := by
    intro b hb hh
    obtain ⟨c, hc, rfl⟩ := List.mem_map.mp hb
    exact hp.handlers c hc hh

theorem WellFormed.addCommands (hp : p.WellFormed) (ts : List Token) (h : Segmented ts) :
    (p.addCommands ts).WellFormed where
  unnamed := hp.unnamed
  named := hp.named
  distinct := hp.distinct
  parameters := hp.parameters
  commands := hp.commands.append h
  handlers := hp.handlers

theorem WellFormed.copy (hp : p.WellFormed) (name : Text) (line : Int) (arguments : List Text) :
    (p.copy name line arguments).WellFormed := by
  have commands : (p.copy name line arguments).commands.name = p.commands.name ∧
      (p.copy name line arguments).commands.value = p.commands.value := by
    simp only [Protocol.copy]
    split <;> exact ⟨rfl, rfl⟩
  exact ⟨commands.1.trans hp.unnamed, hp.named, hp.distinct, hp.parameters, commands.2 ▸ hp.commands, hp.handlers⟩

theorem WellFormed.readAssignment (hp : p.WellFormed) (name : Text) (line : Int) (s : Scanner)
    (plain : PlainName name) :
    (p.readAssignment name line s).1.WellFormed ∧
      (p.readAssignment name line s).1.commands.value = p.commands.value := by
  have touched := hp.touch (p.settle s.readRawValue.1).uses
  simp only [Protocol.readAssignment]
  split
  · exact ⟨touched, rfl⟩
  · exact ⟨touched, rfl⟩
  · refine ⟨touched.assign name line _ plain.1 ?_, ?_⟩
    · intro handler
      rw [plain.lower.2] at handler
      cases handler
    · rw [assign_commands]
      rfl

end Protocol

namespace Scanner

theorem readBody_wellFormed (protocols : List Protocol) (p q : Protocol) (s s' : Scanner)
    (hps : ∀ r ∈ protocols, Segmented r.commands.value) (hp : p.WellFormed) (h : readBody protocols p s = .ok q s') :
    q.WellFormed ∧ q.name = p.name := by
  fun_induction readBody protocols p s with
  | case2 => cases h; exact ⟨hp, rfl⟩
  | case3 => cases h; exact ⟨hp, rfl⟩
  | case6 p s name line s₁ plain q' s₂ ha head ih =>
    have named := readHead_named_ne_nil false s s₁ name line _ head
    have kept := hp.readAssignment name line s₁ ⟨named, by simpa using plain⟩
    obtain ⟨value, -, settled⟩ := (p.readAssignment_eq_ok_iff q' name line s₁ s₂).mp ha
    obtain ⟨ts, -, rfl⟩ := (p.settled?_eq_some_iff q' name line value).mp settled
    rw [ha] at kept
    obtain ⟨hq, same⟩ := ih kept.1 h
    refine ⟨hq, same.trans ?_⟩
    rw [Protocol.assign_name]
    rfl
  | case8 p s name line s₁ handler ts s₂ hr head _ ih =>
    have named := readHead_named_ne_nil false s s₁ name line _ head
    have block := readHandler_segmented protocols s₁ s₂ ts hps (noted_eq_ok _ _ _ _ _ hr)
    obtain ⟨hq, same⟩ := ih (hp.assign name line ts named fun _ => block) h
    exact ⟨hq, same.trans (p.assign_name name line ts)⟩
  | case12 p s name line after s₁ head _ _ _ ts s₂ hc ih =>
    have command := readCommand_segmented protocols name line after s₁ s₂ ts hps hc
    obtain ⟨hq, same⟩ := ih (hp.addCommands ts command) h
    exact ⟨hq, same⟩
  | _ => simp [fail] at h

theorem readSignature_nodup (name : Text) (s s' : Scanner) (parameters : List Text)
    (h : readSignature name s = .ok parameters s') : parameters.length ≤ maxParameters ∧ parameters.Nodup := by
  rw [readSignature] at h
  split at h
  · cases h
  · next names s₁ hn =>
    split at h
    · cases h
      exact readParameters_nodup name [] parameters s s₁ List.nodup_nil hn
    · cases h

end Scanner

namespace ProtocolFile

/-- Protocols have different names, the bindings outside of them come without commands, and all of them are well
formed. -/
structure WellFormed (f : ProtocolFile) : Prop where
  names : (f.protocols.map Protocol.name).Nodup
  globals : f.globals.WellFormed
  commands : f.globals.commands.value = []
  protocols : ∀ p ∈ f.protocols, p.WellFormed

theorem readOpening_nodup (name : Text) (after : Option Char) (s s' : Scanner) (parameters : List Text)
    (h : readOpening name after s = .ok parameters s') : parameters.length ≤ maxParameters ∧ parameters.Nodup := by
  rw [readOpening] at h
  split at h
  · exact Scanner.readSignature_nodup name s s' parameters h
  · cases h
    exact ⟨Nat.zero_le _, List.nodup_nil⟩

variable {f : ProtocolFile}

theorem WellFormed.readDefinition (hf : f.WellFormed) (name : Text) (line : Int) (parameters : List Text)
    (s s' : Scanner) (p : Protocol) (few : parameters.length ≤ maxParameters ∧ parameters.Nodup)
    (h : f.readDefinition name line parameters s = .ok p s') :
    p.WellFormed ∧ p.name ∉ f.protocols.map Protocol.name := by
  rw [ProtocolFile.readDefinition] at h
  split at h
  · cases h
  · next fresh =>
    have copied := hf.globals.copy name line []
    have template : ({ f.globals.copy name line [] with parameters := parameters } : Protocol).WellFormed :=
      ⟨copied.unnamed, copied.named, copied.distinct, few, copied.commands, copied.handlers⟩
    obtain ⟨hp, same⟩ := Scanner.readBody_wellFormed f.protocols _ p s s' (fun q hq => (hf.protocols q hq).commands)
      template (Scanner.noted_eq_ok _ _ _ _ _ h)
    refine ⟨hp, ?_⟩
    rw [same]
    simpa [Protocol.copy, List.find?_eq_none] using fresh

theorem WellFormed.addProtocol (hf : f.WellFormed) (p : Protocol) (hp : p.WellFormed)
    (fresh : p.name ∉ f.protocols.map Protocol.name) : WellFormed { f with protocols := f.protocols ++ [p] } where
  names := by
    rw [List.map_append, List.map_singleton, ← List.concat_eq_append]
    exact hf.names.concat fresh
  globals := hf.globals
  commands := hf.commands
  protocols := List.forall_mem_append.mpr ⟨hf.protocols, by simpa using hp⟩

theorem WellFormed.setGlobals (hf : f.WellFormed) (p : Protocol) (hp : p.WellFormed)
    (commands : p.commands.value = f.globals.commands.value) : WellFormed { f with globals := p } :=
  ⟨hf.names, hp, commands.trans hf.commands, hf.protocols⟩

theorem readStatements_wellFormed (f : ProtocolFile) (s : Scanner) (hf : f.WellFormed) (pending : f.valid = false) :
    (f.readStatements s).1.WellFormed ∧
      ((f.readStatements s).1.valid = true ↔ (f.readStatements s).2 = none) := by
  -- an assignment that fails may have changed the globals (`case5`); only the end of the source sets `valid`
  fun_induction readStatements f s with
  | case1 => exact ⟨hf, by simp [pending]⟩
  | case2 => exact ⟨⟨hf.names, hf.globals, hf.commands, hf.protocols⟩, by simp⟩
  | case3 => exact ⟨hf, by simp [stop, pending]⟩
  | case4 => exact ⟨hf, by simp [stop, pending]⟩
  | case5 f s name line s₁ plain p e s₂ ha head =>
    have named := Scanner.readHead_named_ne_nil true s s₁ name line _ head
    have kept := hf.globals.readAssignment name line s₁ ⟨named, by simpa using plain⟩
    rw [ha] at kept
    exact ⟨hf.setGlobals p kept.1 kept.2, by simp [pending]⟩
  | case6 f s name line s₁ plain p s₂ ha head ih =>
    have named := Scanner.readHead_named_ne_nil true s s₁ name line _ head
    have kept := hf.globals.readAssignment name line s₁ ⟨named, by simpa using plain⟩
    rw [ha] at kept
    exact ih (hf.setGlobals p kept.1 kept.2) pending
  | case7 => exact ⟨hf, by simp [pending]⟩
  | case8 f s name line s₁ handler ts s₂ hh head _ ih =>
    have named := Scanner.readHead_named_ne_nil true s s₁ name line _ head
    have block := Scanner.readHandler_segmented f.protocols s₁ s₂ ts (fun q hq => (hf.protocols q hq).commands)
      (Scanner.noted_eq_ok _ _ _ _ _ hh)
    refine ih (hf.setGlobals _ (hf.globals.assign name line ts named fun _ => block) ?_) pending
    rw [Protocol.assign_commands]
  | case9 => exact ⟨hf, by simp [stop, pending]⟩
  | case10 => exact ⟨hf, by simp [pending]⟩
  | case11 => exact ⟨hf, by simp [pending]⟩
  | case12 f s name line after s₁ head _ _ _ parameters s₂ opening p s₃ hd ih =>
    have few := readOpening_nodup name after s₁ s₂ parameters opening
    obtain ⟨hp, fresh⟩ := hf.readDefinition name line parameters s₂ s₃ p few hd
    exact ih (hf.addProtocol p hp fresh) pending
  | case13 => exact ⟨hf, by simp [stop, pending]⟩

theorem empty_wellFormed (file : Option Text) : (empty file).WellFormed where
  names := List.nodup_nil
  globals :=
    ⟨rfl, by simp [empty], List.nodup_nil, ⟨Nat.zero_le _, List.nodup_nil⟩, segmented_nil, by simp [empty]⟩
  commands := rfl
  protocols := by simp [empty]

theorem ofSource_wellFormed (source : Text) (file : Option Text) (f : ProtocolFile)
    (hf : ofSource source file = .ok f) : f.WellFormed := by
  have run := readStatements_wellFormed (empty file) (.ofSource source) (empty_wellFormed file) rfl
  rw [ofSource, read] at hf
  cases result : (empty file).readStatements (.ofSource source) with
  | mk g failure =>
    rw [result] at hf run
    cases failure with
    | none =>
      cases hf
      exact run.1
    | some e => cases hf

/-- Whatever the source and however reading it ends, the file is well formed; it is valid exactly if reading did not
fail. -/
theorem read_wellFormed (source : Text) (file : Option Text) :
    (read source file).1.WellFormed ∧ ((read source file).1.valid = true ↔ (read source file).2 = none) := by
  have run := readStatements_wellFormed (empty file) (.ofSource source) (empty_wellFormed file) rfl
  simp only [read, Option.map_eq_none_iff]
  exact run

end ProtocolFile
end DeviceProtocol
