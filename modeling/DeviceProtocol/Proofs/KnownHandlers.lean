import Mathlib.Data.List.Basic
import DeviceProtocol.Host
import DeviceProtocol.Proofs.SettingSources
import DeviceProtocol.Proofs.Utf8
import DeviceProtocol.Proofs.WrittenReferences
set_option autoImplicit false

namespace DeviceProtocol

theorem toLower_eq_at (c : Char) (ascii : c.toNat < 0x80) (h : c.toLower = '@') : c = '@' :=
  forall_ascii (fun c => c.toLower = '@' → c = '@') (by decide) c ascii h

theorem ofNat_ne_at (n : Nat) (h : 0x40 < n) : Char.ofNat n ≠ '@' := by
  intro same
  have code : (Char.ofNat n).toNat = 0x40 := by rw [same]; rfl
  by_cases valid : n.isValidChar
  · rw [Utf8.toNat_ofNat n valid] at code
    omega
  · rw [Char.ofNat, dif_neg valid] at code
    cases code

theorem lowerChar_eq_at (c : Char) (cs : Text) (h : lowerChar c = '@' :: cs) : c = '@' := by
  unfold lowerChar at h
  dsimp only at h
  split at h
  · next ascii => exact toLower_eq_at c ascii (List.cons.inj h).1
  · split at h
    · simp at h
    · split at h
      · next r found =>
        have far : (capitals.all fun r => 0x40 < r.first + r.shift) = true := by decide +kernel
        have above := List.all_eq_true.mp far r (List.mem_of_find?_eq_some found)
        have within := List.find?_some found
        simp only [CapitalRun.contains, Bool.and_eq_true, decide_eq_true_eq] at within above
        exact absurd (List.cons.inj h).1 (ofNat_ne_at _ (by omega))
      · exact (List.cons.inj h).1

/-- A name by which a reference finds no handler. -/
def PlainName (name : Text) : Prop := name ≠ [] ∧ isHandlerName name = false

instance (name : Text) : Decidable (PlainName name) := inferInstanceAs (Decidable (_ ∧ _))

theorem PlainName.lower {name : Text} (h : PlainName name) : PlainName (Text.lower name) := by
  cases name with
  | nil => exact absurd rfl h.1
  | cons c cs =>
    have first : c ≠ '@' := by simpa [PlainName, isHandlerName] using h
    rw [Text.lower, Text.lowerAfter]
    split
    · split <;> exact ⟨by simp, rfl⟩
    · cases small : lowerChar c with
      | nil => exact absurd small (lowerChar_ne_nil c)
      | cons d ds =>
        have other : d ≠ '@' := by
          rintro rfl
          exact first (lowerChar_eq_at c ds small)
        exact ⟨by simp, by simpa [isHandlerName] using other⟩

theorem PlainName.of_prefix {name other : Text} (h : PlainName name) (start : name <+: other) :
    isHandlerName other = false := by
  cases name with
  | nil => exact absurd rfl h.1
  | cons c cs =>
    obtain ⟨rest, rfl⟩ := start
    exact h.2

namespace Protocol

theorem lookup_prefix (p : Protocol) (name : Text) (b : Binding) (h : p.lookup name = some b) :
    Text.lower name <+: b.name := by
  rcases (p.lookup_eq_some_iff name b).mp h with same | ⟨-, first⟩
  · simp [same.1]
  · exact first.1

theorem lookup_plain (p : Protocol) (name : Text) (b : Binding) (plain : PlainName name)
    (h : p.lookup name = some b) : b.isHandler = false :=
  plain.lower.of_prefix (p.lookup_prefix name b h)

theorem not_found_of_isHandler (p : Protocol) (b : Binding) (handler : b.isHandler = true) :
    ¬ p.Found PlainName (.binding b.name) := by
  rintro ⟨name, c, plain, bound, same⟩
  have other : isHandlerName c.name = false := p.lookup_plain name c plain bound
  rw [← Use.binding.inj same] at other
  rw [Binding.isHandler, other] at handler
  cases handler

/-- No handler counts as used. -/
def Spared (p : Protocol) : Prop := ∀ b ∈ p.bindings, b.isHandler = true → b.used = false

theorem touch_spared (p : Protocol) (uses : List Use) (hp : p.Spared) (h : ∀ u ∈ uses, p.Found PlainName u) :
    (p.touch uses).Spared := by
  intro b hb handler
  obtain ⟨c, hc, rfl⟩ := List.mem_map.mp hb
  have unused : c.used = false := hp c hc handler
  have apart : .binding c.name ∉ uses := fun consulted => p.not_found_of_isHandler c handler (h _ consulted)
  simp [touchBy, unused, apart]

theorem assign_spared (p : Protocol) (name : Text) (line : Int) (value : List Token) (hp : p.Spared) :
    (p.assign name line value).Spared := by
  intro b hb handler
  rcases (p.mem_assign name line value b hb).2 with unused | ⟨c, hc, same, used⟩
  · exact unused
  · rw [used]
    exact hp c hc (by rwa [Binding.isHandler, ← same])

theorem settled?_spared (p q : Protocol) (name : Text) (line : Int) (value : List Token)
    (refers : p.Refers PlainName) (hp : p.Spared) (h : RefersTo PlainName value)
    (hq : p.settled? name line value = some q) : q.Spared := by
  obtain ⟨ts, settled, rfl⟩ := (p.settled?_eq_some_iff q name line value).mp hq
  exact assign_spared _ name line ts (p.touch_spared _ hp (settle_obeys refers value h).uses)

theorem build?_spared (protocols : List Protocol) (items : List BodyItem) (p q : Protocol)
    (hps : ∀ r ∈ protocols, r.Refers PlainName) (refers : p.Refers PlainName) (hp : p.Spared)
    (h : RefersTo PlainName (items.flatMap BodyItem.values)) (hq : p.build? protocols items = some q) : q.Spared := by
  refine (build?_keeps (fun r => r.Refers PlainName ∧ r.Spared) protocols items ?_ p q ⟨refers, hp⟩ hq).2
  intro item hitem p q hp hq
  have values : RefersTo PlainName item.values := h.subset fun t ht => List.mem_flatMap.mpr ⟨item, hitem, ht⟩
  refine ⟨extend?_refers protocols item p q hps hp.1 values hq, ?_⟩
  cases item with
  | assignment name line value => exact p.settled?_spared q name line value hp.1 hp.2 values hq
  | handler name line cs =>
    cases hq
    exact assign_spared p name line _ hp.2
  | command c =>
    cases hq
    exact hp.2

end Protocol

namespace ProtocolFile

theorem ofSource_spared (source : Text) (file : Option Text) (f : ProtocolFile) (statements : List Statement)
    (written : Scanner.StatementsAt (.ofSource source) statements)
    (h : RefersTo PlainName (statements.flatMap Statement.values)) (hf : ofSource source file = .ok f) :
    ∀ p ∈ f.protocols, p.Spared := by
  obtain ⟨statements', g, written', built, rfl⟩ := (ofSource_eq_ok_iff source file f).mp hf
  cases written.unique written'
  let I (f : ProtocolFile) : Prop := f.Refers PlainName ∧ f.globals.Spared ∧ ∀ p ∈ f.protocols, p.Spared
  have start : I (empty file) := ⟨empty_refers file, by simp [empty, Protocol.Spared], by simp [empty]⟩
  refine (build?_keeps I statements ?_ (empty file) g start built).2.2
  intro statement hs f g hf hg
  obtain ⟨refers, globals, protocols⟩ := hf
  have values : RefersTo PlainName statement.values := h.subset fun t ht => List.mem_flatMap.mpr ⟨statement, hs, ht⟩
  refine ⟨extend?_refers statement f g refers values hg, ?_⟩
  cases statement with
  | assignment name line value =>
    obtain ⟨p, hp, rfl⟩ := Option.map_eq_some_iff.mp hg
    exact ⟨f.globals.settled?_spared p name line value refers.globals globals values hp, protocols⟩
  | handler name line cs =>
    cases hg
    exact ⟨Protocol.assign_spared _ name line _ globals, protocols⟩
  | definition name line parameters items =>
    obtain ⟨-, p, hp, rfl⟩ := (f.extend?_definition g name line parameters items).mp hg
    have template := f.template_refers refers name line parameters
    refine ⟨globals, List.forall_mem_append.mpr ⟨protocols, ?_⟩⟩
    rw [List.forall_mem_singleton]
    exact Protocol.build?_spared f.protocols items _ p refers.protocols template globals values hp

end ProtocolFile

namespace Protocol

theorem checkBindings_eq_none_iff (p : Protocol) (bs : List Binding) :
    (p.checkBindings bs).2 = none ↔ ∀ b ∈ bs, b.isHandler = true → b.used = true := by
  induction bs with
  | nil => simp [checkBindings]
  | cons b bs ih =>
    rw [checkBindings, List.forall_mem_cons, ← ih]
    cases used : b.used with
    | true => simp
    | false => cases handler : b.isHandler <;> simp

theorem checkUnused_touch_iff (p : Protocol) (uses : List Use) :
    (p.touch uses).checkUnused.2 = none ↔ ∀ b ∈ p.handlerBindings, b.used = true ∨ .binding b.name ∈ uses := by
  rw [checkUnused, checkBindings_eq_none_iff]
  simp only [touch, List.forall_mem_map, handlerBindings, List.mem_filter, and_imp]
  refine forall₂_congr fun b _ => forall_congr' fun _ => ?_
  simp [touchBy]

theorem checkUnused_touch (p : Protocol) (uses : List Use) (hp : p.Spared) :
    (p.touch uses).checkUnused.2 = none ↔ ∀ b ∈ p.handlerBindings, .binding b.name ∈ uses := by
  rw [checkUnused_touch_iff]
  refine forall₂_congr fun b hb => ?_
  obtain ⟨mem, handler⟩ := List.mem_filter.mp hb
  simp [hp b mem handler]

theorem checkBindings_eq_some (p : Protocol) (bs : List Binding) (fault : Fault)
    (h : (p.checkBindings bs).2 = some fault) :
    ∃ b ∈ bs, b.isHandler = true ∧ b.used = false ∧ fault.cause = .handlerUnknown b.name := by
  induction bs with
  | nil => cases h
  | cons b bs ih =>
    rw [checkBindings] at h
    split at h
    · obtain ⟨c, mem, rest⟩ := ih h
      exact ⟨c, List.mem_cons_of_mem _ mem, rest⟩
    · next unused =>
      split at h
      · next handler =>
        cases h
        exact ⟨b, List.mem_cons_self, handler, by simpa using unused, rfl⟩
      · obtain ⟨c, mem, rest⟩ := ih h
        exact ⟨c, List.mem_cons_of_mem _ mem, rest⟩

theorem unused_of_checkUnused_touch (p : Protocol) (uses : List Use) (fault : Fault)
    (h : (p.touch uses).checkUnused.2 = some fault) :
    ∃ b ∈ p.handlerBindings, b.used = false ∧ .binding b.name ∉ uses ∧ fault.cause = .handlerUnknown b.name := by
  obtain ⟨_, mem, handler, unused, cause⟩ := checkBindings_eq_some _ _ fault h
  obtain ⟨b, hb, rfl⟩ := List.mem_map.mp mem
  have apart : b.used = false ∧ .binding b.name ∉ uses := by simpa [touchBy] using unused
  exact ⟨b, List.mem_filter.mpr ⟨hb, handler⟩, apart.1, apart.2, cause⟩

/-- A handler of this name is taken for one that the engine knows. -/
def Known (p : Protocol) (name : Text) : Prop :=
  ∃ known ∈ knownHandlers, name = known ∨
    (∀ b ∈ p.bindings, b.name ≠ known) ∧ ∃ b, p.First (known <+: ·) b ∧ b.name = name

theorem lookup_of_mem (p : Protocol) (b : Binding) (name : Text) (hb : b ∈ p.bindings) (h : b.name = Text.lower name) :
    ∃ c, p.lookup name = some c ∧ c.name = b.name := by
  cases found : p.bindings.find? fun c => c.name == Text.lower name with
  | none => exact absurd h (by simpa using List.find?_eq_none.mp found b hb)
  | some c =>
    refine ⟨c, by simp [lookup, found], ?_⟩
    rw [h]
    simpa using List.find?_some found

theorem lower_known : ∀ known ∈ knownHandlers, Text.lower known = known := by decide

theorem known_iff_lookup (p : Protocol) (b : Binding) (hb : b ∈ p.bindings) :
    p.Known b.name ↔ ∃ known ∈ knownHandlers, ∃ c, p.lookup known = some c ∧ c.name = b.name := by
  refine exists_congr fun known => and_congr_right fun mem => ?_
  have lower := lower_known known mem
  constructor
  · rintro (same | ⟨missing, c, first, same⟩)
    · exact p.lookup_of_mem b known hb (same.trans lower.symm)
    · exact ⟨c, (p.lookup_eq_some_iff known c).mpr (.inr (by rw [lower]; exact ⟨missing, first⟩)), same⟩
  · rintro ⟨c, found, same⟩
    rcases (p.lookup_eq_some_iff known c).mp found with first | ⟨missing, first⟩
    · exact .inl (same.symm.trans (first.1.trans lower))
    · rw [lower] at missing first
      exact .inr ⟨missing, c, first, same⟩

/-- The names by which compilation looks for bindings: those in references, of known handlers and of settings. -/
def Sought (name : Text) : Prop := PlainName name ∨ name ∈ knownHandlers

theorem checkUnused_iff_known (p : Protocol) (uses : List Use) (hp : p.Spared)
    (found : ∀ u ∈ uses, u = .commands ∨ p.Found Sought u)
    (all : ∀ known ∈ knownHandlers, ∀ c, p.lookup known = some c → .binding c.name ∈ uses) :
    (p.touch uses).checkUnused.2 = none ↔ ∀ b ∈ p.handlerBindings, p.Known b.name := by
  rw [p.checkUnused_touch uses hp]
  refine forall₂_congr fun b hb => ?_
  obtain ⟨mem, handler⟩ := List.mem_filter.mp hb
  rw [p.known_iff_lookup b mem]
  constructor
  · intro used
    rcases found _ used with h | ⟨name, c, plain | known, bound, same⟩
    · cases h
    · exact absurd ⟨name, c, plain, bound, same⟩ (p.not_found_of_isHandler b handler)
    · exact ⟨name, known, c, bound, (Use.binding.inj same).symm⟩
  · rintro ⟨known, mem, c, bound, same⟩
    rw [← same]
    exact all known mem c bound

end Protocol

namespace Compiler

open Protocol (Sought)

variable (k : Compiler)

theorem compileSource_eq_ok_iff (source instantiation : Text) (file : Option Text) (f : ProtocolFile) (p : Protocol)
    (program : Program) (hf : ProtocolFile.ofSource source file = .ok f) (hp : f.instantiate instantiation = .ok p) :
    k.compileSource source instantiation file = .ok program ↔
      (k.compileInstance p).result = .ok program ∧ (p.touch (k.compileInstance p).uses).checkUnused.2 = none := by
  simp only [compileSource, Except.bind_eq_ok_iff, Except.mapError_eq_ok_iff, hf, Except.ok.injEq]
  constructor
  · rintro ⟨_, rfl, q, hq, _, compiled, _, used, same⟩
    cases hp.symm.trans hq
    cases same
    refine ⟨compiled, ?_⟩
    rw [Protocol.requireUsed] at used
    split at used
    · cases used
    · next h => exact h
  · rintro ⟨compiled, used⟩
    refine ⟨f, rfl, p, hp, program, compiled, (), ?_, rfl⟩
    rw [Protocol.requireUsed, used]

theorem compileInstance_known (p : Protocol) (program : Program) (refers : p.Refers PlainName) (spared : p.Spared)
    (h : (k.compileInstance p).result = .ok program) :
    (p.touch (k.compileInstance p).uses).checkUnused.2 = none ↔ ∀ b ∈ p.handlerBindings, p.Known b.name := by
  have obeys := k.compileInstance_obeys (refers.mono fun _ plain => Or.inl plain : p.Refers Sought) fun _ => .inr
  obtain ⟨programs, compiled, -⟩ := (Traced.bind_eq_ok_iff _ _ _).mp h
  refine p.checkUnused_iff_known _ spared obeys.uses ?_
  intro known mem c bound
  exact Traced.mem_uses_bind_left _ _ _ (k.handlerPrograms_consults programs known c compiled mem bound)

theorem compileProtocol_known (p : Protocol) (c : CompiledProtocol) (refers : p.Refers PlainName) (spared : p.Spared)
    (h : (k.compileProtocol p).result = .ok c) :
    (p.touch (k.compileProtocol p).uses).checkUnused.2 = none ↔ ∀ b ∈ p.handlerBindings, p.Known b.name := by
  have settings : ∀ name ∈ settingNames, PlainName name := by decide
  have obeys := k.compileProtocol_obeys (refers.mono fun _ plain => Or.inl plain : p.Refers Sought) (fun _ => .inr)
    fun name mem => .inl (settings name mem)
  obtain ⟨_, read, h⟩ := (Traced.bind_eq_ok_iff _ _ _).mp h
  obtain ⟨programs, compiled, -⟩ := (Traced.bind_eq_ok_iff _ _ _).mp h
  refine p.checkUnused_iff_known _ spared obeys.uses ?_
  intro known mem c bound
  refine Traced.mem_uses_bind_right _ _ _ _ read (Traced.mem_uses_bind_left _ _ _ ?_)
  exact k.handlerPrograms_consults programs known c compiled mem bound

end Compiler

namespace Host

theorem reported_result {α : Type} (o : Outcome α) : o.reported.result = o.result := by
  rw [Outcome.reported]
  split
  · rfl
  · rfl

theorem compile_eq_ok_iff (h : Host) (tree : FileTree) (name instantiation : Text) (f : ProtocolFile) (p : Protocol)
    (c : CompiledProtocol) (loaded : (h.load tree name).result = .ok f) (hp : f.instantiate instantiation = .ok p) :
    (h.compile tree name instantiation).result = .ok c ↔
      (h.compiler.compileProtocol p).result = .ok c ∧
        (p.touch (h.compiler.compileProtocol p).uses).checkUnused.2 = none := by
  have fetched : h.instantiate tree name instantiation =
      { result := .ok p
        host := (h.load tree name).host
        events := (ProtocolFile.instantiationWarning? instantiation).toList.map .warning } := by
    simp only [instantiate, fetch, loaded, hp, Outcome.reported]
  have same : (h.load tree name).host.compiler = h.compiler := rfl
  simp only [compile, fetched, reported_result, compileInstance, same]
  cases result : (h.compiler.compileProtocol p).result with
  | error e => simp
  | ok d =>
    dsimp only
    cases (p.touch (h.compiler.compileProtocol p).uses).checkUnused.2 with
    | none => simp
    | some fault => simp

end Host

theorem ProtocolFile.mem_of_instantiate (f : ProtocolFile) (text : Text) (p : Protocol)
    (h : f.instantiate text = .ok p) : ∃ t ∈ f.protocols, ∃ arguments, p = t.copy text 0 arguments := by
  rw [instantiate] at h
  split at h
  · cases h
  · split at h
    · cases h
    · next i _ _ t found =>
      cases h
      rw [template?] at found
      split at found
      · cases found
      · exact ⟨t, mem_of_findIn found, i.arguments, rfl⟩

/-- As long as no reference in a source can find a handler, compiling an instance, be it directly or by a host that has
loaded the file, succeeds exactly if its parts compile and every handler is taken for one that the engine knows. -/
theorem compiles_iff_handlers_known (source instantiation : Text) (file : Option Text) (statements : List Statement)
    (f : ProtocolFile) (p : Protocol) (written : Scanner.StatementsAt (.ofSource source) statements)
    (plain : RefersTo PlainName (statements.flatMap Statement.values))
    (hf : ProtocolFile.ofSource source file = .ok f) (hp : f.instantiate instantiation = .ok p) :
    (∀ (k : Compiler) (program : Program), k.compileSource source instantiation file = .ok program ↔
      (k.compileInstance p).result = .ok program ∧ ∀ b ∈ p.handlerBindings, p.Known b.name) ∧
    (∀ (h : Host) (tree : FileTree) (name : Text), (h.load tree name).result = .ok f →
      ∀ c, (h.compile tree name instantiation).result = .ok c ↔
        (h.compiler.compileProtocol p).result = .ok c ∧ ∀ b ∈ p.handlerBindings, p.Known b.name) := by
  obtain ⟨t, mem, arguments, copied⟩ := f.mem_of_instantiate instantiation p hp
  have refers : p.Refers PlainName := by
    have template := (ProtocolFile.ofSource_refers source file f statements written plain hf).protocols t mem
    rw [copied]
    exact Protocol.copy_refers template _ _ _
  have spared : p.Spared := by
    rw [copied]
    exact ProtocolFile.ofSource_spared source file f statements written plain hf t mem
  -- no reference names a handler, so a handler is used only where the engine asks for it
  constructor
  · intro k program
    rw [k.compileSource_eq_ok_iff source instantiation file f p program hf hp]
    exact and_congr_right fun compiled => k.compileInstance_known p program refers spared compiled
  · intro h tree name loaded c
    rw [h.compile_eq_ok_iff tree name instantiation f p c loaded hp]
    exact and_congr_right fun compiled => h.compiler.compileProtocol_known p c refers spared compiled

theorem compiles_iff_handlers_known_longer :
    let source := "p \x7b @initial \x7b wait $1; \x7d out $1; \x7d".toList
    let reference : Token := ⟨.reference, ['1'], 1, none⟩
    let body : List BodyItem := [
      .handler "@initial".toList 1 [⟨"wait".toList, 1, false, [reference], 1⟩],
      .command ⟨"out".toList, 1, false, [reference], 1⟩]
    let p : Protocol := {
      name := "p(5)".toList, line := 1, self := some "p(5)".toList, arguments := [['5']]
      commands := ⟨[], [⟨.word, "out".toList, 1, none⟩, reference, ⟨.terminator, [';'], 1, none⟩], 1, false⟩
      bindings := [⟨"@initial".toList, [⟨.word, "wait".toList, 1, none⟩, reference, ⟨.terminator, [';'], 1, none⟩], 1,
        false⟩] }
    Scanner.StatementsAt (.ofSource source) [.definition ['p'] 1 [] body] ∧
      ∀ b ∈ p.handlerBindings, p.Known b.name := by
  intro source reference body p
  have written : Scanner.StatementsAt (.ofSource source) [.definition ['p'] 1 [] body] := by
    refine .definition _ { rest := " @initial \x7b wait $1; \x7d out $1; \x7d".toList } _ { rest := [] } ['p'] 1
      (some '\x7b') [] body [] ?_ ?_ (.inl rfl) rfl ?_ (.done _ { rest := [] } ?_)
    case refine_3 =>
      refine .handler _ { rest := " wait $1; \x7d out $1; \x7d".toList } { rest := " out $1; \x7d".toList } _ _ 1 _ _
        ?_ ?_
        (.command _ _ _ _ _
          (.intro _ { rest := "1; \x7d out $1; \x7d".toList } { rest := " \x7d out $1; \x7d".toList } _ 1 (some '$') _
            ?_ ?_ ?_ ?_ ?_)
          (.close _ _ ?_))
        (.command _ _ _ _ _
          (.intro _ { rest := "1; \x7d".toList } { rest := " \x7d".toList } _ 1 (some '$') _ ?_ ?_ ?_ ?_ ?_)
          (.close _ _ ?_))
      all_goals decide +kernel
    all_goals decide +kernel
  have read : ProtocolFile.ofSource source none = .ok
      { protocols := [{ p with name := ['p'], self := some ['p'], arguments := [] }], valid := true } := by
    decide +kernel
  have known := compiles_iff_handlers_known source "p(5)".toList none _ _ p written (by decide +kernel) read
    (by decide +kernel)
  refine ⟨written, ((known.1 {} ⟨[⟨.output, 1, [.string [.literal [5]]]⟩]⟩).mp ?_).2⟩
  decide +kernel

/-- A handler whose name goes on behind that of a known one gets through, though it is not one of them. -/
theorem compiles_longer_handler :
    let source := "p \x7b @initialize \x7b out \"x\"; \x7d wait 1; \x7d".toList
    '$' ∉ source ∧
    ({} : Compiler).compileSource source ['p'] none = .ok ⟨[⟨.wait, 1, [.number 1]⟩]⟩ ∧
    ((ProtocolFile.ofSource source none).bind fun f => (f.instantiate ['p']).mapError .fault).map
        (fun p => p.handlerBindings.map Binding.name) = .ok ["@initialize".toList] ∧
    "@initialize".toList ∉ knownHandlers := by
  decide +kernel

end DeviceProtocol
