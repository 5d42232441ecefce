import DeviceProtocol.Proofs.AlikeProtocols
import DeviceProtocol.Proofs.KnownHandlers
set_option autoImplicit false

/-!
Two ways to a program: a host loads a file and compiles a protocol of it with its settings, or the text of the file is
compiled on its own. Both give the same program. They differ in one point: a host also consults what its settings refer
to, and a handler that nothing else refers to is unknown without a host.
-/
namespace DeviceProtocol

namespace Protocol

def under (p : Protocol) (file : Option Text) : Protocol := { p with file := file }

theorem under_alike (p : Protocol) (file : Option Text) : p.Alike (fun _ => True) (p.under file) where
  name := rfl
  line := rfl
  self := rfl
  arguments := rfl
  parameters := rfl
  commands := p.commands.same_refl
  lookup := by
    intro name _
    have same : (p.under file).lookup name = p.lookup name := rfl
    rw [same]
    cases p.lookup name with
    | none => exact .inl ⟨rfl, rfl⟩
    | some b => exact .inr ⟨b, b, rfl, rfl, b.same_refl⟩
  refers := ⟨fun _ _ _ => trivial, fun _ _ _ _ _ => trivial⟩

theorem declare_under (p : Protocol) (file : Option Text) (name : Text) (line : Int) :
    (p.under file).declare name line = (p.declare name line).under file := by
  have same : (p.under file).bindings = p.bindings := rfl
  rw [declare, declare, same]
  split <;> rfl

theorem assign_under (p : Protocol) (file : Option Text) (name : Text) (line : Int) (value : List Token) :
    (p.under file).assign name line value = (p.assign name line value).under file := by
  rw [assign, declare_under]
  rfl

theorem settled?_under (p q : Protocol) (file : Option Text) (name : Text) (line : Int) (value : List Token)
    (h : p.settled? name line value = some q) : (p.under file).settled? name line value = some (q.under file) := by
  obtain ⟨ts, settled, rfl⟩ := (p.settled?_eq_some_iff q name line value).mp h
  have alike := settle_alike (p.under_alike file) value fun _ _ _ => trivial
  refine (settled?_eq_some_iff _ _ name line value).mpr ⟨ts, (alike.result.ok_iff ts).mp settled, ?_⟩
  rw [← alike.uses, ← assign_under]
  rfl

end Protocol

theorem ProtocolFile.findIn_under (protocols : List Protocol) (file : Option Text) (name : Text) :
    findIn (protocols.map (·.under file)) name = (findIn protocols name).map (·.under file) := by
  simp only [findIn, List.find?_map, Option.map_or]
  rfl

theorem WrittenCommand.tokens_under (protocols : List Protocol) (file : Option Text) (c : WrittenCommand) :
    c.tokens (protocols.map (·.under file)) = c.tokens protocols := by
  rw [tokens, tokens, ProtocolFile.findIn_under]
  cases c.alone with
  | false => rfl
  | true =>
    cases ProtocolFile.findIn protocols c.name with
    | none => rfl
    | some p => rfl

namespace Protocol

theorem extend?_under (protocols : List Protocol) (file : Option Text) (item : BodyItem) (p q : Protocol)
    (h : extend? protocols p item = some q) :
    extend? (protocols.map (·.under file)) (p.under file) item = some (q.under file) := by
  have same : WrittenCommand.tokens (protocols.map (·.under file)) = WrittenCommand.tokens protocols :=
    funext fun c => c.tokens_under protocols file
  cases item with
  | assignment name line value => exact p.settled?_under q file name line value h
  | handler name line cs =>
    cases h
    rw [extend?, same, assign_under]
  | command c =>
    cases h
    rw [extend?, same]
    rfl

theorem build?_under (protocols : List Protocol) (file : Option Text) (items : List BodyItem) (p q : Protocol)
    (h : p.build? protocols items = some q) :
    (p.under file).build? (protocols.map (·.under file)) items = some (q.under file) := by
  induction items generalizing p with
  | nil =>
    cases h
    rfl
  | cons item items ih =>
    obtain ⟨p₁, first, rest⟩ := Option.bind_eq_some_iff.mp h
    rw [build?, List.foldlM_cons, extend?_under protocols file item p p₁ first]
    exact ih p₁ rest

end Protocol

namespace ProtocolFile

def under (f : ProtocolFile) (file : Option Text) : ProtocolFile :=
  { f with file := file, globals := f.globals.under file, protocols := f.protocols.map (·.under file) }

theorem template_under (f : ProtocolFile) (file : Option Text) (name : Text) (line : Int) (parameters : List Text) :
    (f.under file).template name line parameters = (f.template name line parameters).under file := rfl

theorem extend?_under (file : Option Text) (statement : Statement) (f g : ProtocolFile)
    (h : f.extend? statement = some g) : (f.under file).extend? statement = some (g.under file) := by
  cases statement with
  | assignment name line value =>
    obtain ⟨p, hp, rfl⟩ := Option.map_eq_some_iff.mp h
    have settled := f.globals.settled?_under p file name line value hp
    show ((f.globals.under file).settled? name line value).map _ = _
    rw [settled]
    rfl
  | handler name line cs =>
    cases h
    have same : WrittenCommand.tokens (f.protocols.map (·.under file)) = WrittenCommand.tokens f.protocols :=
      funext fun c => c.tokens_under f.protocols file
    have globals := f.globals.assign_under file name line (cs.flatMap (WrittenCommand.tokens f.protocols))
    rw [← same] at globals
    simp only [extend?, under]
    rw [globals, same]
  | definition name line parameters items =>
    obtain ⟨fresh, p, hp, rfl⟩ := (f.extend?_definition g name line parameters items).mp h
    refine (extend?_definition _ _ name line parameters items).mpr ⟨?_, p.under file, ?_, ?_⟩
    · exact List.forall_mem_map.mpr fresh
    · rw [template_under]
      exact Protocol.build?_under f.protocols file items _ p hp
    · simp [under]

theorem build?_under (file : Option Text) (statements : List Statement) (f g : ProtocolFile)
    (h : f.build? statements = some g) : (f.under file).build? statements = some (g.under file) := by
  induction statements generalizing f with
  | nil =>
    cases h
    rfl
  | cons statement statements ih =>
    obtain ⟨f₁, first, rest⟩ := Option.bind_eq_some_iff.mp h
    rw [build?, List.foldlM_cons, extend?_under file statement f f₁ first]
    exact ih f₁ rest

theorem ofSource_under (source : Text) (file file' : Option Text) (f : ProtocolFile)
    (h : ofSource source file = .ok f) : ofSource source file' = .ok (f.under file') := by
  obtain ⟨statements, g, written, built, rfl⟩ := (ofSource_eq_ok_iff source file f).mp h
  exact (ofSource_eq_ok_iff source file' _).mpr
    ⟨statements, g.under file', written, build?_under file' statements (empty file) g built, rfl⟩

theorem instantiate_under (f : ProtocolFile) (file : Option Text) (text : Text) (p : Protocol)
    (h : f.instantiate text = .ok p) : (f.under file).instantiate text = .ok (p.under file) := by
  rw [instantiate] at h ⊢
  split at h
  · cases h
  · next i read =>
    have same : (f.under file).template? i.name = (f.template? i.name).map (·.under file) := by
      simp only [template?, find]
      split
      · rfl
      · exact findIn_under f.protocols file i.name
    split at h
    · cases h
    · next t found =>
      cases h
      rw [same, found]
      rfl

end ProtocolFile

namespace Compiler

variable (k : Compiler)

theorem compileSource_under (source instantiation : Text) (file file' : Option Text) (program : Program)
    (h : k.compileSource source instantiation file = .ok program) :
    k.compileSource source instantiation file' = .ok program := by
  obtain ⟨f, hf, rest⟩ := (Except.bind_eq_ok_iff _ _ _).mp h
  obtain ⟨p, hp, -⟩ := (Except.bind_eq_ok_iff _ _ _).mp rest
  rw [Except.mapError_eq_ok_iff] at hp
  obtain ⟨compiled, used⟩ := (k.compileSource_eq_ok_iff source instantiation file f p program hf hp).mp h
  have alike := k.compileInstance_alike (p.under_alike file') fun _ _ => trivial
  refine (k.compileSource_eq_ok_iff source instantiation file' _ _ program
    (ProtocolFile.ofSource_under source file file' f hf) (f.instantiate_under file' instantiation p hp)).mpr ⟨?_, ?_⟩
  · exact (alike.result.ok_iff program).mp compiled
  · rw [Protocol.checkUnused_touch_iff] at used ⊢
    rw [← alike.uses]
    exact used

theorem compileSource_ok_or_unused (source instantiation : Text) (file : Option Text) (f : ProtocolFile) (p : Protocol)
    (program : Program) (hf : ProtocolFile.ofSource source file = .ok f) (hp : f.instantiate instantiation = .ok p)
    (compiled : (k.compileInstance p).result = .ok program) :
    k.compileSource source instantiation file = .ok program ∨
      ∃ b ∈ p.handlerBindings, b.used = false ∧ .binding b.name ∉ (k.compileInstance p).uses ∧
        ∃ fault : Fault, k.compileSource source instantiation file = .error (.fault fault) ∧
          fault.cause = .handlerUnknown b.name := by
  cases unused : (p.touch (k.compileInstance p).uses).checkUnused.2 with
  | none => exact .inl ((k.compileSource_eq_ok_iff source instantiation file f p program hf hp).mpr ⟨compiled, unused⟩)
  | some fault =>
    obtain ⟨b, mem, before, now, cause⟩ := p.unused_of_checkUnused_touch _ fault unused
    refine .inr ⟨b, mem, before, now, fault, ?_, cause⟩
    simp only [compileSource, hf, hp, compiled, Except.mapError, Protocol.requireUsed, unused, bind, Except.bind]

theorem compileProtocol_eq_ok_iff (p : Protocol) (c : CompiledProtocol) :
    (k.compileProtocol p).result = .ok c ↔
      c.name = p.name ∧ (k.readSettings p).result = .ok c.settings ∧ (k.handlerPrograms p).result = .ok c.handlers ∧
        (k.compileInstance p).result = .ok c.commands := by
  obtain ⟨name, settings, commands, handlers⟩ := c
  simp only [compileProtocol, compileInstance, Traced.bind_eq_ok_iff, Traced.result_pure, Except.ok.injEq,
    CompiledProtocol.mk.injEq]
  constructor
  · rintro ⟨_, read, _, defined, own, compiled, rfl, rfl, rfl, rfl⟩
    exact ⟨rfl, read, defined, _, defined, own, compiled, rfl⟩
  · rintro ⟨rfl, read, defined, _, -, own, compiled, rfl⟩
    exact ⟨settings, read, handlers, defined, own, compiled, rfl, rfl, rfl, rfl⟩

theorem compileProtocol_uses (p : Protocol) (settings : Settings) (read : (k.readSettings p).result = .ok settings) :
    (k.compileProtocol p).uses = (k.readSettings p).uses ++ (k.compileInstance p).uses := by
  rw [compileProtocol, Traced.uses_bind_ok _ _ settings read, compileInstance]
  congr 1
  cases defined : (k.handlerPrograms p).result with
  | error e => rw [Traced.uses_bind_error _ _ e defined, Traced.uses_bind_error _ _ e defined]
  | ok handlers =>
    rw [Traced.uses_bind_ok _ _ handlers defined, Traced.uses_bind_ok _ _ handlers defined]
    cases compiled : (k.ownProgram p).result with
    | error e => rw [Traced.uses_bind_error _ _ e compiled, Traced.uses_bind_error _ _ e compiled]
    | ok own =>
      rw [Traced.uses_bind_ok _ _ own compiled, Traced.uses_bind_ok _ _ own compiled]
      rfl

end Compiler

namespace Host

theorem load_eq_ok_iff (h : Host) (tree : FileTree) (name path : Text) (f : ProtocolFile)
    (fresh : h.library.cached name = none) (found : h.library.findFile tree name = .ok path) :
    (h.load tree name).result = .ok f ↔
      ProtocolFile.ofSource (sourceText ((tree.file? path).getD [])) (some path) = .ok f := by
  simp only [load, Library.load, fresh, found, ProtocolFile.ofSource]
  rcases ProtocolFile.read (sourceText ((tree.file? path).getD [])) (some path) with ⟨g, _ | e⟩
  · simp
  · simp

theorem instantiate_eq_ok_iff (h : Host) (tree : FileTree) (name instantiation : Text) (p : Protocol) :
    (h.instantiate tree name instantiation).result = .ok p ↔
      ∃ f, (h.load tree name).result = .ok f ∧ f.instantiate instantiation = .ok p := by
  rw [instantiate, reported_result, fetch]
  cases (h.load tree name).result with
  | error e => simp
  | ok f =>
    dsimp only
    cases instantiated : f.instantiate instantiation with
    | error fault => simp [instantiated]
    | ok q => simp [instantiated]

theorem settings_eq_ok_iff (h : Host) (tree : FileTree) (name instantiation : Text) (settings : Settings) :
    (h.settings tree name instantiation).result = .ok settings ↔
      ∃ p, (h.instantiate tree name instantiation).result = .ok p ∧
        (h.compiler.readSettings p).result = .ok settings := by
  rw [Host.settings]
  cases (h.instantiate tree name instantiation).result with
  | error e => simp
  | ok p => simp

theorem instantiate_of_compile (h : Host) (tree : FileTree) (name instantiation : Text) (c : CompiledProtocol)
    (compiled : (h.compile tree name instantiation).result = .ok c) :
    ∃ p, (h.instantiate tree name instantiation).result = .ok p := by
  rw [compile] at compiled
  split at compiled
  · cases compiled
  · next p instantiated => exact ⟨p, instantiated⟩

variable (h : Host) (tree : FileTree) (name path instantiation : Text) (file : Option Text)

/-- What a host compiles, its source compiles to, unless only the settings refer to one of the handlers. -/
theorem compileSource_of_compile (fresh : h.library.cached name = none)
    (found : h.library.findFile tree name = .ok path) (c : CompiledProtocol)
    (ok : (h.compile tree name instantiation).result = .ok c) :
    let source := sourceText ((tree.file? path).getD [])
    h.compiler.compileSource source instantiation file = .ok c.commands ∨
      ∃ p, (h.instantiate tree name instantiation).result = .ok p ∧ ∃ b ∈ p.handlerBindings,
        .binding b.name ∈ (h.compiler.readSettings p).uses ∧ .binding b.name ∉ (h.compiler.compileInstance p).uses ∧
        ∃ fault : Fault, h.compiler.compileSource source instantiation file = .error (.fault fault) ∧
          fault.cause = .handlerUnknown b.name := by
  intro source
  obtain ⟨p, instantiated⟩ := h.instantiate_of_compile tree name instantiation c ok
  obtain ⟨f, loaded, hp⟩ := (h.instantiate_eq_ok_iff tree name instantiation p).mp instantiated
  obtain ⟨compiled, used⟩ := (h.compile_eq_ok_iff tree name instantiation f p c loaded hp).mp ok
  obtain ⟨-, read, -, program⟩ := (h.compiler.compileProtocol_eq_ok_iff p c).mp compiled
  have hf := (h.load_eq_ok_iff tree name path f fresh found).mp loaded
  have alike := h.compiler.compileInstance_alike (p.under_alike file) fun _ _ => trivial
  rcases h.compiler.compileSource_ok_or_unused source instantiation file _ _ c.commands
    (ProtocolFile.ofSource_under source _ file f hf) (f.instantiate_under file instantiation p hp)
    ((alike.result.ok_iff _).mp program) with ok | ⟨b, mem, before, now, unused⟩
  · exact .inl ok
  · rw [← alike.uses] at now
    rw [Protocol.checkUnused_touch_iff, h.compiler.compileProtocol_uses p c.settings read] at used
    rcases used b mem with used | used
    · rw [before] at used
      cases used
    · exact .inr ⟨p, instantiated, b, mem, (List.mem_append.mp used).resolve_right now, now, unused⟩

theorem compile_of_compileSource (fresh : h.library.cached name = none)
    (found : h.library.findFile tree name = .ok path) (program : Program) (settings : Settings)
    (ok : h.compiler.compileSource (sourceText ((tree.file? path).getD [])) instantiation file = .ok program)
    (read : (h.settings tree name instantiation).result = .ok settings) :
    ∃ c, (h.compile tree name instantiation).result = .ok c ∧ c.commands = program ∧ c.settings = settings := by
  obtain ⟨p, instantiated, read⟩ := (h.settings_eq_ok_iff tree name instantiation settings).mp read
  obtain ⟨f, loaded, hp⟩ := (h.instantiate_eq_ok_iff tree name instantiation p).mp instantiated
  have hf := (h.load_eq_ok_iff tree name path f fresh found).mp loaded
  obtain ⟨compiled, used⟩ := (h.compiler.compileSource_eq_ok_iff _ instantiation (some path) f p program hf hp).mp
    (h.compiler.compileSource_under _ instantiation file (some path) program ok)
  obtain ⟨handlers, defined, -⟩ := (Traced.bind_eq_ok_iff _ _ _).mp compiled
  refine ⟨⟨p.name, settings, program, handlers⟩, ?_, rfl, rfl⟩
  refine (h.compile_eq_ok_iff tree name instantiation f p _ loaded hp).mpr ⟨?_, ?_⟩
  · exact (h.compiler.compileProtocol_eq_ok_iff p _).mpr ⟨rfl, read, defined, compiled⟩
  · rw [Protocol.checkUnused_touch_iff] at used ⊢
    intro b mem
    rw [h.compiler.compileProtocol_uses p settings read, List.mem_append]
    exact (used b mem).imp_right .inr

theorem readSettings_spares (k : Compiler) (source : Text) (statements : List Statement) (f : ProtocolFile)
    (p : Protocol) (written : Scanner.StatementsAt (.ofSource source) statements)
    (plain : RefersTo PlainName (statements.flatMap Statement.values))
    (hf : ProtocolFile.ofSource source file = .ok f) (hp : f.instantiate instantiation = .ok p) (b : Binding)
    (handler : b ∈ p.handlerBindings) : .binding b.name ∉ (k.readSettings p).uses := by
  obtain ⟨t, mem, arguments, rfl⟩ := f.mem_of_instantiate instantiation p hp
  have refers := (ProtocolFile.ofSource_refers source file f statements written plain hf).protocols t mem
  have settings : ∀ name ∈ settingNames, PlainName name := by decide
  have obeys := k.readSettings_obeys (Protocol.copy_refers refers instantiation 0 arguments) settings
  exact fun used => Protocol.not_found_of_isHandler _ b (List.mem_filter.mp handler).2 (obeys.uses _ used)

/-- A host and its source compile to the same program. A handler that only the settings refer to makes the one
difference, and there is none as long as no reference in the source can find a handler. -/
theorem compile_agrees (fresh : h.library.cached name = none) (found : h.library.findFile tree name = .ok path) :
    let source := sourceText ((tree.file? path).getD [])
    (∀ c, (h.compile tree name instantiation).result = .ok c →
      h.compiler.compileSource source instantiation file = .ok c.commands ∨
        ∃ p, (h.instantiate tree name instantiation).result = .ok p ∧ ∃ b ∈ p.handlerBindings,
          .binding b.name ∈ (h.compiler.readSettings p).uses ∧
          .binding b.name ∉ (h.compiler.compileInstance p).uses ∧
          ∃ fault : Fault, h.compiler.compileSource source instantiation file = .error (.fault fault) ∧
            fault.cause = .handlerUnknown b.name) ∧
    (∀ statements, Scanner.StatementsAt (.ofSource source) statements →
      RefersTo PlainName (statements.flatMap Statement.values) →
      ∀ c, (h.compile tree name instantiation).result = .ok c →
        h.compiler.compileSource source instantiation file = .ok c.commands) ∧
    (∀ program settings, h.compiler.compileSource source instantiation file = .ok program →
      (h.settings tree name instantiation).result = .ok settings →
      ∃ c, (h.compile tree name instantiation).result = .ok c ∧ c.commands = program ∧ c.settings = settings) := by
  intro source
  refine ⟨h.compileSource_of_compile tree name path instantiation file fresh found, ?_,
    h.compile_of_compileSource tree name path instantiation file fresh found⟩
  intro statements written plain c ok
  rcases h.compileSource_of_compile tree name path instantiation file fresh found c ok with
    ok | ⟨p, instantiated, b, handler, used, -⟩
  · exact ok
  · obtain ⟨f, loaded, hp⟩ := (h.instantiate_eq_ok_iff tree name instantiation p).mp instantiated
    have hf := (h.load_eq_ok_iff tree name path f fresh found).mp loaded
    exact absurd used
      (readSettings_spares instantiation (some path) h.compiler source statements f p written plain hf hp b handler)

theorem compile_agrees_argument :
    let source : Text := "p \x7b @init \x7b wait $1; \x7d separator = \",\"; out $1; \x7d".toList
    let tree := FileTree.ofFiles [("a.proto".toList, some source.utf8)]
    let host : Host := {}
    host.library.cached "a.proto".toList = none ∧
    host.library.findFile tree "a.proto".toList = .ok "./a.proto".toList ∧
    ∃ c, (host.compile tree "a.proto".toList "p(5)".toList).result = .ok c ∧
      c.commands = ⟨[⟨.output, 1, [.string [.literal [5]]]⟩]⟩ ∧ c.settings = { separator := [.literal [44]] } := by
  intro source tree host
  have fresh : host.library.cached "a.proto".toList = none := by decide +kernel
  have found : host.library.findFile tree "a.proto".toList = .ok "./a.proto".toList := by decide +kernel
  refine ⟨fresh, found, ?_⟩
  exact (host.compile_agrees tree _ _ "p(5)".toList none fresh found).2.2 _ _ (by decide +kernel) (by decide +kernel)

/-- Here only the separator refers to the handler `@y`. -/
theorem compile_setting_handler :
    let source : Text :=
      "p \x7b @x \x7b cr $\x7b@y\x7d; \x7d @y \x7b lf; \x7d separator = $\x7b@x\x7d; wait 1; \x7d".toList
    let tree := FileTree.ofFiles [("a.proto".toList, some source.utf8)]
    let host : Host := {}
    host.library.findFile tree "a.proto".toList = .ok "./a.proto".toList ∧
    sourceText ((tree.file? "./a.proto".toList).getD []) = source ∧
    (host.compile tree "a.proto".toList ['p']).result.map CompiledProtocol.commands =
      .ok ⟨[⟨.wait, 1, [.number 1]⟩]⟩ ∧
    host.compiler.compileSource source ['p'] (some "<string>".toList) =
      .error (.fault { cause := .handlerUnknown "@y".toList, line := some 1, file := some "<string>".toList }) := by
  decide +kernel

end Host
end DeviceProtocol
