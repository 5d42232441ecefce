import DeviceProtocol.Proofs.FileInvariant
set_option autoImplicit false

namespace DeviceProtocol

/-- The tokens of one command. Whatever stands between its name and its end is an argument. -/
structure CompleteCommand where
  word : Token
  arguments : List Token
  stop : Token
  named : word.kind = .word
  inside : ∀ t ∈ arguments, t.kind ≠ .terminator
  stops : stop.kind = .terminator

namespace CompleteCommand

def tokens (c : CompleteCommand) : List Token := c.word :: c.arguments ++ [c.stop]

def segment (c : CompleteCommand) : Token × List Token := (c.word, c.arguments)

end CompleteCommand

theorem commandSegments_complete (cs : List CompleteCommand) :
    commandSegments (cs.flatMap CompleteCommand.tokens) = cs.map CompleteCommand.segment := by
  induction cs with
  | nil => rw [List.flatMap_nil, commandSegments, List.map_nil]
  | cons c cs ih =>
    have inside : ∀ t ∈ c.arguments, (t.kind != .terminator) = true := by simpa using c.inside
    have rest : (c :: cs).flatMap CompleteCommand.tokens =
        c.word :: (c.arguments ++ c.stop :: cs.flatMap CompleteCommand.tokens) := by
      simp [CompleteCommand.tokens]
    rw [rest, commandSegments, List.takeWhile_append_of_pos inside, List.dropWhile_append_of_pos inside]
    simp [c.stops, ih, CompleteCommand.segment]

def Segment.complete (g : Segment) : CompleteCommand :=
  ⟨g.word, g.arguments, g.stop, g.named, fun t ht => (g.proper t ht).terminator, g.stops⟩

theorem Segmented.complete {ts : List Token} (h : Segmented ts) :
    ∃ cs : List CompleteCommand, ts = cs.flatMap CompleteCommand.tokens := by
  obtain ⟨segments, rfl⟩ := h
  exact ⟨segments.map Segment.complete, by rw [List.flatMap_map]; rfl⟩

theorem segmented_flatMap {α : Type} (f : α → List Token) (as : List α) (h : ∀ a ∈ as, Segmented (f a)) :
    Segmented (as.flatMap f) := by
  induction as with
  | nil => exact segmented_nil
  | cons a as ih =>
    rw [List.forall_mem_cons] at h
    exact h.1.append (ih h.2)

namespace Traced

variable {α β : Type}

theorem forAll_eq_ok_iff (f : α → Traced β) (as : List α) (bs : List β) :
    (forAll f as).result = .ok bs ↔ List.Forall₂ (fun a b => (f a).result = .ok b) as bs := by
  induction as generalizing bs with
  | nil => simp [forAll, pure, eq_comm]
  | cons a as ih =>
    constructor
    · intro h
      obtain ⟨b, hb, h⟩ := (bind_eq_ok_iff _ _ _).mp h
      obtain ⟨back, hbs, h⟩ := (bind_eq_ok_iff _ _ _).mp h
      cases h
      exact .cons hb ((ih back).mp hbs)
    · intro h
      cases h with
      | @cons _ b _ bs hb hbs =>
        have back := (ih bs).mpr hbs
        show (f a >>= _).result = _
        rw [bind_of_ok _ _ b hb, bind_of_ok _ _ bs back]
        rfl

theorem forAll_append_eq_ok_iff (f : α → Traced β) (as as' : List α) (bs : List β) :
    (forAll f (as ++ as')).result = .ok bs ↔
      ∃ front back, (forAll f as).result = .ok front ∧ (forAll f as').result = .ok back ∧ bs = front ++ back := by
  simp only [forAll_eq_ok_iff]
  constructor
  · intro h
    refine ⟨bs.take as.length, bs.drop as.length, ?_, ?_, (List.take_append_drop _ _).symm⟩
    · exact (List.forall₂_take_append bs as as' h.flip).flip
    · exact (List.forall₂_drop_append bs as as' h.flip).flip
  · rintro ⟨front, back, hf, hb, rfl⟩
    exact List.rel_append hf hb

end Traced

namespace Compiler

variable (k : Compiler) (p : Protocol)

theorem compileNamed_line (name : Text) (line : Int) (a b : Arguments) (command : Command)
    (h : (k.compileNamed p name line a).result = .ok (command, b)) : command.line = line := by
  rw [compileNamed] at h
  split at h
  · obtain ⟨is, -, h⟩ := (Traced.bind_eq_ok_iff _ _ _).mp h
    cases h
    rfl
  · split at h
    · obtain ⟨n, -, h⟩ := (Traced.bind_eq_ok_iff _ _ _).mp h
      cases h
      rfl
    · split at h
      · obtain ⟨operands, -, h⟩ := (Traced.bind_eq_ok_iff _ _ _).mp h
        cases h
        rfl
      · split at h
        · cases h
          rfl
        · exact absurd h (Traced.fault_ne_ok _ _ _ _)

theorem compileCommand_line (segment : Token × List Token) (command : Command)
    (h : (k.compileCommand p segment).result = .ok command) : command.line = segment.1.line := by
  obtain ⟨⟨named, a⟩, hn, h⟩ := (Traced.bind_eq_ok_iff _ _ _).mp h
  dsimp only at h
  split at h
  · cases h
    exact k.compileNamed_line p _ _ _ a command ((Traced.mapFault_eq_ok_iff _ _ _).mp hn)
  · exact absurd h (Traced.fault_ne_ok _ _ _ _)

theorem compileCommands_eq_ok_iff (ts : List Token) (program : Program) :
    (k.compileCommands p ts).result = .ok program ↔
      k.fields.isSome ∧ (Traced.forAll (k.compileCommand p) (commandSegments ts)).result = .ok program.commands := by
  rw [compileCommands]
  cases k.fields with
  | none => simp [Traced.fault]
  | some table =>
    rw [Traced.bind_eq_ok_iff]
    constructor
    · rintro ⟨commands, run, same⟩
      cases same
      exact ⟨rfl, run⟩
    · rintro ⟨-, run⟩
      exact ⟨program.commands, run, rfl⟩

theorem compileCommands_append (as bs : List CompleteCommand) (program : Program) :
    (k.compileCommands p (as.flatMap CompleteCommand.tokens ++ bs.flatMap CompleteCommand.tokens)).result =
        .ok program ↔
      ∃ front back, (k.compileCommands p (as.flatMap CompleteCommand.tokens)).result = .ok front ∧
        (k.compileCommands p (bs.flatMap CompleteCommand.tokens)).result = .ok back ∧
        program.commands = front.commands ++ back.commands := by
  rw [← List.flatMap_append]
  simp only [compileCommands_eq_ok_iff, commandSegments_complete, List.map_append, Traced.forAll_append_eq_ok_iff]
  constructor
  · rintro ⟨fields, front, back, hf, hb, same⟩
    exact ⟨⟨front⟩, ⟨back⟩, ⟨fields, hf⟩, ⟨fields, hb⟩, same⟩
  · rintro ⟨front, back, ⟨fields, hf⟩, ⟨-, hb⟩, same⟩
    exact ⟨fields, front.commands, back.commands, hf, hb, same⟩

theorem compileCommands_lines (cs : List CompleteCommand) (program : Program)
    (h : (k.compileCommands p (cs.flatMap CompleteCommand.tokens)).result = .ok program) :
    List.Forall₂ (fun c command => (k.compileCommand p c.segment).result = .ok command ∧ command.line = c.word.line) cs
      program.commands := by
  have run := ((k.compileCommands_eq_ok_iff p _ program).mp h).2
  rw [commandSegments_complete, Traced.forAll_eq_ok_iff, List.forall₂_map_left_iff] at run
  exact run.imp fun c command hc => ⟨hc, k.compileCommand_line p c.segment command hc⟩

theorem compileCommands_flatMap (parts : List Protocol) (table : FieldTable) (hk : k.fields = some table)
    (complete : ∀ t ∈ parts, Segmented t.commands.value) (program : Program) :
    (k.compileCommands p (parts.flatMap (·.commands.value))).result = .ok program ↔
      ∃ programs, List.Forall₂ (fun t part => (k.compileCommands p t.commands.value).result = .ok part) parts programs ∧
        program.commands = programs.flatMap Program.commands := by
  induction parts generalizing program with
  | nil =>
    simp only [List.flatMap_nil, compileCommands_eq_ok_iff, commandSegments, Traced.forAll_eq_ok_iff,
      List.forall₂_nil_left_iff, exists_eq_left, hk, Option.isSome_some, true_and]
  | cons t parts ih =>
    rw [List.forall_mem_cons] at complete
    obtain ⟨as, ha⟩ := complete.1.complete
    obtain ⟨bs, hb⟩ := (segmented_flatMap _ parts complete.2).complete
    rw [List.flatMap_cons, ha, hb, compileCommands_append, ← ha, ← hb]
    simp only [ih complete.2, List.forall₂_cons_left_iff]
    constructor
    · rintro ⟨front, back, hf, ⟨programs, hp, hb⟩, same⟩
      exact ⟨front :: programs, ⟨front, programs, hf, hp, rfl⟩, by rw [same, hb, List.flatMap_cons]⟩
    · rintro ⟨_, ⟨front, programs, hf, hp, rfl⟩, same⟩
      exact ⟨front, ⟨programs.flatMap Program.commands⟩, hf, ⟨programs, hp, rfl⟩, same⟩

/-- No commands at all are the empty program, also where they are not compiled. -/
theorem ownProgram_eq_ok_iff (table : FieldTable) (hk : k.fields = some table) (program : Program) :
    (∃ own, (k.ownProgram p).result = .ok own ∧ own.getD .empty = program) ↔
      (k.compileCommands p p.commands.value).result = .ok program := by
  have own : (k.ownProgram p).result = (if p.commands.value.isEmpty then return none else do
      let program ← (k.compileCommands p p.commands.value).mapFault fun f =>
        (f.locate (some p.commands.line) p.file).addNote (some p.commands.line) (.inProtocol p.name)
      return some program : Traced (Option Program)).result := rfl
  rw [own]
  split
  · next none =>
    rw [List.isEmpty_iff.mp none, compileCommands_eq_ok_iff, commandSegments, hk]
    constructor
    · rintro ⟨_, ⟨⟩, rfl⟩
      exact ⟨rfl, rfl⟩
    · rintro ⟨-, run⟩
      refine ⟨_, rfl, ?_⟩
      obtain ⟨commands⟩ := program
      cases run
      rfl
  · simp only [Traced.bind_eq_ok_iff, Traced.mapFault_eq_ok_iff]
    constructor
    · rintro ⟨_, ⟨program, compiled, ⟨⟩⟩, rfl⟩
      exact compiled
    · intro compiled
      exact ⟨some program, ⟨program, compiled, rfl⟩, rfl⟩

end Compiler

theorem Protocol.copy_commands (p : Protocol) (name : Text) (line : Int) (arguments : List Text) :
    (p.copy name line arguments).commands.value = p.commands.value := by
  simp only [copy]
  split <;> rfl

theorem Protocol.build?_commands (protocols : List Protocol) (cs : List WrittenCommand) (p : Protocol) :
    p.build? protocols (cs.map .command) = some (p.addCommands (cs.flatMap (·.tokens protocols))) := by
  induction cs generalizing p with
  | nil => simp [build?, addCommands]
  | cons c cs ih =>
    rw [List.map_cons, build?, List.foldlM_cons]
    show (p.addCommands (c.tokens protocols)).build? protocols (cs.map .command) = _
    rw [ih, List.flatMap_cons, addCommands, addCommands, addCommands, List.append_assoc]

namespace ProtocolFile

theorem findIn_exact (protocols : List Protocol) (name : Text) (h : Text.lower name ∈ protocols.map Protocol.name) :
    ∃ t ∈ protocols, t.name = Text.lower name ∧ ∀ later, findIn (protocols ++ later) name = some t := by
  obtain ⟨t, ht, same⟩ := List.mem_map.mp h
  have found : (protocols.find? fun p => p.name == Text.lower name).isSome :=
    List.find?_isSome.mpr ⟨t, ht, by simpa using same⟩
  obtain ⟨r, hr⟩ := Option.isSome_iff_exists.mp found
  refine ⟨r, List.mem_of_find?_eq_some hr, by simpa using List.find?_some hr, ?_⟩
  intro later
  simp [findIn, List.find?_append, hr]

theorem tokens_exact (protocols : List Protocol) (cs : List WrittenCommand)
    (h : ∀ c ∈ cs, c.alone = true ∧ Text.lower c.name ∈ protocols.map Protocol.name) :
    ∃ parts : List Protocol, parts ⊆ protocols ∧
      List.Forall₂ (fun c t => t.name = Text.lower c.name ∧ ∀ later, findIn (protocols ++ later) c.name = some t) cs
        parts ∧
      cs.flatMap (·.tokens protocols) = parts.flatMap (·.commands.value) := by
  induction cs with
  | nil => exact ⟨[], List.nil_subset _, .nil, rfl⟩
  | cons c cs ih =>
    rw [List.forall_mem_cons] at h
    obtain ⟨parts, sub, named, same⟩ := ih h.2
    obtain ⟨t, mem, spelled, found⟩ := findIn_exact protocols c.name h.1.2
    refine ⟨t :: parts, List.cons_subset.mpr ⟨mem, sub⟩, .cons ⟨spelled, found⟩ named, ?_⟩
    have here : findIn protocols c.name = some t := by simpa using found []
    rw [List.flatMap_cons, List.flatMap_cons, same, WrittenCommand.tokens, if_pos h.1.1, here]

theorem build?_names (f g : ProtocolFile) (statements : List Statement) (h : f.build? statements = some g) :
    g.protocols.map Protocol.name = f.protocols.map Protocol.name ++ statements.flatMap Statement.defined := by
  induction statements generalizing f with
  | nil =>
    cases h
    simp
  | cons statement statements ih =>
    obtain ⟨f₁, first, rest⟩ := Option.bind_eq_some_iff.mp h
    rw [ih f₁ rest, List.flatMap_cons, ← List.append_assoc]
    congr 1
    cases statement with
    | assignment name line value =>
      obtain ⟨p, hp, rfl⟩ := Option.map_eq_some_iff.mp first
      simp [Statement.defined]
    | handler name line cs =>
      cases first
      simp [Statement.defined]
    | definition name line parameters items =>
      obtain ⟨-, p, hp, rfl⟩ := (f.extend?_definition f₁ name line parameters items).mp first
      have named : p.name = name := Protocol.build?_name f.protocols items _ p hp
      simp [Statement.defined, named]

theorem build?_globals (f g : ProtocolFile) (statements : List Statement) (hf : f.globals.commands.value = [])
    (h : f.build? statements = some g) : g.globals.commands.value = [] := by
  refine build?_keeps (fun r => r.globals.commands.value = []) statements ?_ f g hf h
  intro statement _ r r' hr hr'
  cases statement with
  | assignment name line value =>
    obtain ⟨p, hp, rfl⟩ := Option.map_eq_some_iff.mp hr'
    obtain ⟨ts, -, rfl⟩ := (r.globals.settled?_eq_some_iff p name line value).mp hp
    rw [Protocol.assign_commands]
    exact hr
  | handler name line cs =>
    cases hr'
    rw [Protocol.assign_commands]
    exact hr
  | definition name line parameters items =>
    obtain ⟨-, p, -, rfl⟩ := (r.extend?_definition r' name line parameters items).mp hr'
    exact hr

theorem ofSource_composed (source : Text) (file : Option Text) (f : ProtocolFile) (front back : List Statement)
    (name : Text) (line : Int) (parameters : List Text) (cs : List WrittenCommand)
    (written : Scanner.StatementsAt (.ofSource source)
      (front ++ .definition name line parameters (cs.map .command) :: back))
    (hf : ofSource source file = .ok f)
    (earlier : ∀ c ∈ cs, c.alone = true ∧ Text.lower c.name ∈ front.flatMap Statement.defined) :
    ∃ q ∈ f.protocols, q.name = name ∧ ∃ parts : List Protocol, parts ⊆ f.protocols ∧
      List.Forall₂ (fun c t => t.name = Text.lower c.name ∧ f.find c.name = some t) cs parts ∧
      q.commands.value = parts.flatMap (·.commands.value) := by
  obtain ⟨statements, g, written', built, rfl⟩ := (ofSource_eq_ok_iff source file f).mp hf
  cases written.unique written'
  rw [build?, List.foldlM_append] at built
  obtain ⟨f₁, first, rest⟩ := Option.bind_eq_some_iff.mp built
  obtain ⟨f₂, second, rest⟩ := Option.bind_eq_some_iff.mp rest
  obtain ⟨-, q, hq, rfl⟩ := (f₁.extend?_definition f₂ name line parameters _).mp second
  have named : q.name = name := Protocol.build?_name f₁.protocols _ _ q hq
  obtain ⟨later, grown⟩ := build?_protocols _ g back rest
  have bare := build?_globals (empty file) f₁ front rfl first
  have names := build?_names (empty file) f₁ front first
  obtain ⟨parts, sub, found, same⟩ := tokens_exact f₁.protocols cs fun c hc => by
    rw [names]
    exact earlier c hc
  have mem (t : Protocol) (ht : t ∈ f₁.protocols ++ [q]) : t ∈ g.protocols := by
    rw [← grown]
    exact List.mem_append_left _ ht
  refine ⟨q, mem q (by simp), named, parts, fun t ht => mem t (List.mem_append_left _ (sub ht)), ?_, ?_⟩
  · refine found.imp fun c t h => ⟨h.1, ?_⟩
    show findIn g.protocols c.name = some t
    rw [← grown, List.append_assoc]
    exact h.2 _
  · rw [Protocol.build?_commands] at hq
    cases hq
    show (f₁.globals.copy name line []).commands.value ++ _ = _
    rw [Protocol.copy_commands, bare, same]
    rfl

end ProtocolFile

namespace Compiler

/-- Complete commands one behind the other compile exactly if each part compiles, and the program has the commands of
the parts one behind the other: one command for each complete command, with the line of its name. So a protocol whose
body is made of the names of earlier protocols compiles to what their commands give in its place. -/
theorem compileCommands_sequence (k : Compiler) :
    (∀ (p : Protocol) (as bs : List CompleteCommand) (program : Program),
      ((k.compileCommands p (as.flatMap CompleteCommand.tokens ++ bs.flatMap CompleteCommand.tokens)).result =
          .ok program ↔
        ∃ front back, (k.compileCommands p (as.flatMap CompleteCommand.tokens)).result = .ok front ∧
          (k.compileCommands p (bs.flatMap CompleteCommand.tokens)).result = .ok back ∧
          program.commands = front.commands ++ back.commands) ∧
      ((k.compileCommands p (as.flatMap CompleteCommand.tokens)).result = .ok program →
        List.Forall₂ (fun c command =>
          (k.compileCommand p c.segment).result = .ok command ∧ command.line = c.word.line) as program.commands)) ∧
    ∀ (table : FieldTable) (source : Text) (file : Option Text) (f : ProtocolFile) (front back : List Statement)
      (name : Text) (line : Int) (parameters : List Text) (cs : List WrittenCommand), k.fields = some table →
      Scanner.StatementsAt (.ofSource source) (front ++ .definition name line parameters (cs.map .command) :: back) →
      ProtocolFile.ofSource source file = .ok f →
      (∀ c ∈ cs, c.alone = true ∧ Text.lower c.name ∈ front.flatMap Statement.defined) →
      ∃ q ∈ f.protocols, q.name = name ∧ ∃ parts : List Protocol,
        List.Forall₂ (fun c t => t.name = Text.lower c.name ∧ f.find c.name = some t) cs parts ∧
        ∀ (text : Text) (place : Int) (arguments : List Text) (program : Program),
          let i := q.copy text place arguments
          let composed := ∃ programs,
            List.Forall₂ (fun t part => (k.compileCommands i t.commands.value).result = .ok part) parts programs ∧
              program.commands = programs.flatMap Program.commands
          ((∃ own, (k.ownProgram i).result = .ok own ∧ own.getD .empty = program) ↔ composed) ∧
            (f.instantiate text = .ok i → k.compileSource source text file = .ok program → composed) := by
  refine ⟨fun p as bs program => ⟨k.compileCommands_append p as bs program, k.compileCommands_lines p as program⟩, ?_⟩
  intro table source file f front back name line parameters cs hk written hf earlier
  obtain ⟨q, mem, named, parts, sub, found, value⟩ :=
    ProtocolFile.ofSource_composed source file f front back name line parameters cs written hf earlier
  refine ⟨q, mem, named, parts, found, ?_⟩
  intro text place arguments program i composed
  have formed := ProtocolFile.ofSource_wellFormed source file f hf
  have own : (∃ own, (k.ownProgram i).result = .ok own ∧ own.getD .empty = program) ↔ composed := by
    rw [k.ownProgram_eq_ok_iff i table hk, Protocol.copy_commands, value]
    exact k.compileCommands_flatMap i parts table hk (fun t ht => (formed.protocols t (sub ht)).commands) program
  refine ⟨own, fun hi compiled => own.mp ?_⟩
  have compiled := ((k.compileSource_eq_ok_iff source text file f i program hf hi).mp compiled).1
  obtain ⟨_, -, compiled⟩ := (Traced.bind_eq_ok_iff _ _ _).mp compiled
  obtain ⟨result, hr, same⟩ := (Traced.bind_eq_ok_iff _ _ _).mp compiled
  cases same
  exact ⟨result, hr, rfl⟩

theorem compileCommands_sequence_twice :
    let source := "a \x7b wait 1; \x7d b \x7b disconnect; \x7d q \x7b b; a; b; \x7d".toList
    let token (kind : TokenKind) (text : String) : Token := ⟨kind, text.toList, 1, none⟩
    let a := [token .word "wait", token .word "1", token .terminator ";"]
    let b := [token .word "disconnect", token .terminator ";"]
    let protocol (name : Text) (commands : List Token) : Protocol :=
      { name := name, line := 1, self := some name, commands := ⟨[], commands, 1, false⟩ }
    let alone (name : Text) : WrittenCommand := ⟨name, 1, true, [], 1⟩
    let front : List Statement := [
      .definition ['a'] 1 [] [.command ⟨"wait".toList, 1, false, [token .word "1"], 1⟩],
      .definition ['b'] 1 [] [.command (alone "disconnect".toList)]]
    let k : Compiler := {}
    let program : Program := ⟨[⟨.disconnect, 1, []⟩, ⟨.wait, 1, [.number 1]⟩, ⟨.disconnect, 1, []⟩]⟩
    Scanner.StatementsAt (.ofSource source)
        (front ++ [.definition ['q'] 1 [] ([alone ['b'], alone ['a'], alone ['b']].map .command)]) ∧
      k.compileSource source ['q'] none = .ok program ∧
      ∃ (parts : List Protocol) (programs : List Program),
        List.Forall₂ (fun name t => t.name = Text.lower name) [['b'], ['a'], ['b']] parts ∧
        List.Forall₂ (fun t part => (k.compileCommands ((protocol ['q'] (b ++ a ++ b)).copy ['q'] 0 [])
          t.commands.value).result = .ok part) parts programs ∧
        program.commands = programs.flatMap Program.commands := by
  intro source token a b protocol alone front k program
  have written : Scanner.StatementsAt (.ofSource source)
      (front ++ [.definition ['q'] 1 [] ([alone ['b'], alone ['a'], alone ['b']].map .command)]) := by
    refine .definition _ { rest := " wait 1; \x7d b \x7b disconnect; \x7d q \x7b b; a; b; \x7d".toList } _
      { rest := " b \x7b disconnect; \x7d q \x7b b; a; b; \x7d".toList } _ 1 (some '\x7b') _ _ _ ?_ ?_ (.inl rfl) rfl
      (.command _ _ _ _ _ (.intro _ { rest := "; \x7d b \x7b disconnect; \x7d q \x7b b; a; b; \x7d".toList }
        { rest := " \x7d b \x7b disconnect; \x7d q \x7b b; a; b; \x7d".toList } _ 1 (some '1') _ ?_ ?_ ?_ ?_ ?_)
        (.close _ _ ?_))
      (.definition _ { rest := " disconnect; \x7d q \x7b b; a; b; \x7d".toList } _
        { rest := " q \x7b b; a; b; \x7d".toList } _ 1 (some '\x7b') _ _ _ ?_ ?_ (.inl rfl) rfl
        (.command _ _ _ _ _ (.intro _ { rest := " \x7d q \x7b b; a; b; \x7d".toList }
          { rest := " \x7d q \x7b b; a; b; \x7d".toList } _ 1 (some ';') _ ?_ ?_ ?_ ?_ ?_)
          (.close _ _ ?_))
        (.definition _ { rest := " b; a; b; \x7d".toList } _ { rest := [] } _ 1 (some '\x7b') _ _ _ ?_ ?_ (.inl rfl) rfl
          (.command _ _ _ _ _ (.intro _ { rest := " a; b; \x7d".toList } { rest := " a; b; \x7d".toList } _ 1
              (some ';') _ ?_ ?_ ?_ ?_ ?_)
            (.command _ _ _ _ _ (.intro _ { rest := " b; \x7d".toList } { rest := " b; \x7d".toList } _ 1 (some ';') _
                ?_ ?_ ?_ ?_ ?_)
              (.command _ _ _ _ _ (.intro _ { rest := " \x7d".toList } { rest := " \x7d".toList } _ 1 (some ';') _
                  ?_ ?_ ?_ ?_ ?_)
                (.close _ _ ?_))))
          (.done _ { rest := [] } ?_)))
    all_goals decide +kernel
  have read : ProtocolFile.ofSource source none = .ok
      { protocols := [protocol ['a'] a, protocol ['b'] b, protocol ['q'] (b ++ a ++ b)], valid := true } := by
    decide +kernel
  have compiled : k.compileSource source ['q'] none = .ok program := by decide +kernel
  obtain ⟨r, mem, named, parts, found, composed⟩ := (compileCommands_sequence k).2 [] source none _ front [] ['q'] 1 []
    [alone ['b'], alone ['a'], alone ['b']] rfl written read (by decide +kernel)
  obtain rfl : r = protocol ['q'] (b ++ a ++ b) := by
    simp only [List.mem_cons, List.not_mem_nil, or_false] at mem
    rcases mem with rfl | rfl | rfl
    · cases named
    · cases named
    · rfl
  obtain ⟨programs, parted, joined⟩ := (composed ['q'] 0 [] program).2 (by decide +kernel) compiled
  refine ⟨written, compiled, parts, programs, ?_, parted, joined⟩
  exact ((List.forall₂_map_left_iff (l := [['b'], ['a'], ['b']]) (f := alone)).mp found).imp fun _ _ h => h.1

end Compiler
end DeviceProtocol
