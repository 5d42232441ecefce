import DeviceProtocol.Proofs.FaultKinds
import DeviceProtocol.Proofs.FileInvariant
import DeviceProtocol.Proofs.KnownHandlers
set_option autoImplicit false

namespace DeviceProtocol

inductive Request where
  | load (file : Text)
  | instantiate (file instantiation : Text)
  | compile (file instantiation : Text)
  | free
  deriving DecidableEq

inductive Response where
  | file (f : ProtocolFile)
  | protocol (p : Protocol)
  | compiled (c : CompiledProtocol)
  | freed
  deriving DecidableEq

/-- Compiles an instance with its settings and handlers and settles the faults of what it does not use. -/
def Compiler.compileUsed (k : Compiler) (p : Protocol) : Except Failure CompiledProtocol := do
  let c ← (k.compileProtocol p).result
  p.requireUsed (k.compileProtocol p).uses
  return c

namespace Request

def file? : Request → Option Text
  | load file | instantiate file _ | compile file _ => some file
  | free => none

def answer (k : Compiler) (f : ProtocolFile) : Request → Except Failure Response
  | load _ => .ok (.file f)
  | instantiate _ text => ((f.instantiate text).mapError .fault).map .protocol
  | compile _ text => ((f.instantiate text).mapError .fault >>= k.compileUsed).map .compiled
  | free => .ok .freed

end Request

def FileTree.parse (tree : FileTree) (path : Text) : ProtocolFile × Option Failure :=
  ProtocolFile.read (sourceText ((tree.file? path).getD [])) (some path)

namespace Host

def respond (h : Host) (tree : FileTree) : Request → Except Failure Response × Host
  | .load file => ((h.load tree file).result.map .file, (h.load tree file).host)
  | .instantiate file text => ((h.instantiate tree file text).result.map .protocol, (h.instantiate tree file text).host)
  | .compile file text => ((h.compile tree file text).result.map .compiled, (h.compile tree file text).host)
  | .free => (.ok .freed, h.free)

/-- The host after some requests. Each of them finds the files as they are at its time. -/
def after (h : Host) : List (FileTree × Request) → Host
  | [] => h
  | (tree, r) :: steps => (h.respond tree r).2.after steps

theorem reported_host {α : Type} (o : Outcome α) : o.reported.host = o.host := by
  rw [Outcome.reported]
  split
  · rfl
  · rfl

theorem instantiate_eq (h : Host) (tree : FileTree) (file text : Text) :
    (h.instantiate tree file text).result =
        (h.load tree file).result >>= (fun f => (f.instantiate text).mapError .fault) ∧
      (h.instantiate tree file text).host = (h.load tree file).host := by
  rw [instantiate, reported_result, reported_host, fetch]
  cases (h.load tree file).result with
  | error e => exact ⟨rfl, rfl⟩
  | ok f =>
    have opened : (Except.ok f >>= fun f => (f.instantiate text).mapError Failure.fault) =
        (f.instantiate text).mapError .fault := rfl
    rw [opened]
    cases instantiated : f.instantiate text with
    | error fault =>
      simp only [instantiated]
      exact ⟨rfl, trivial⟩
    | ok p =>
      simp only [instantiated]
      exact ⟨rfl, trivial⟩

theorem compileInstance_eq (h : Host) (p : Protocol) :
    (h.compileInstance p).result = h.compiler.compileUsed p ∧ (h.compileInstance p).host = h := by
  rw [compileInstance, Compiler.compileUsed]
  cases (h.compiler.compileProtocol p).result with
  | error e => exact ⟨rfl, rfl⟩
  | ok c =>
    rw [Protocol.requireUsed]
    dsimp only
    cases (p.touch (h.compiler.compileProtocol p).uses).checkUnused.2 with
    | none => exact ⟨rfl, rfl⟩
    | some fault => exact ⟨rfl, rfl⟩

theorem load_compiler (h : Host) (tree : FileTree) (file : Text) : (h.load tree file).host.compiler = h.compiler := rfl

theorem compile_eq (h : Host) (tree : FileTree) (file text : Text) :
    (h.compile tree file text).result = (h.instantiate tree file text).result >>= h.compiler.compileUsed ∧
      (h.compile tree file text).host = (h.load tree file).host := by
  have host := (h.instantiate_eq tree file text).2
  rw [compile]
  cases (h.instantiate tree file text).result with
  | error e => exact ⟨rfl, host⟩
  | ok p =>
    obtain ⟨result, same⟩ := (h.instantiate tree file text).host.compileInstance_eq p
    dsimp only
    rw [reported_result, reported_host, same, result, host, load_compiler]
    exact ⟨rfl, rfl⟩

/-- A request is answered from the file alone, and changes nothing but what loading the file changes. -/
theorem respond_eq (h : Host) (tree : FileTree) (r : Request) (file : Text) (asks : r.file? = some file) :
    h.respond tree r = ((h.load tree file).result >>= (r.answer h.compiler ·), (h.load tree file).host) := by
  cases r with
  | load name =>
    cases asks
    rw [respond]
    cases (h.load tree file).result with
    | error e => rfl
    | ok f => rfl
  | instantiate name text =>
    cases asks
    obtain ⟨result, host⟩ := h.instantiate_eq tree file text
    rw [respond, result, host]
    cases (h.load tree file).result with
    | error e => rfl
    | ok f => rfl
  | compile name text =>
    cases asks
    obtain ⟨result, host⟩ := h.compile_eq tree file text
    rw [respond, result, host, (h.instantiate_eq tree file text).1]
    cases (h.load tree file).result with
    | error e => rfl
    | ok f => rfl
  | free => cases asks

end Host

namespace ProtocolFile

theorem readStatements_file (f : ProtocolFile) (s : Scanner) : (f.readStatements s).1.file = f.file := by
  fun_induction readStatements f s with
  | case6 f s name line s₁ _ p s₂ assigned head ih => exact ih
  | case8 f s name line s₁ _ ts s₂ handler head _ ih => exact ih
  | case12 f s name line after s₁ head _ _ _ parameters s₂ opening p s₃ definition ih => exact ih
  | _ => rfl

end ProtocolFile

theorem FileTree.parse_spec (tree : FileTree) (path : Text) :
    ((tree.parse path).1.valid = true ↔ (tree.parse path).2 = none) ∧ (tree.parse path).1.file = some path := by
  have start := ProtocolFile.empty_wellFormed (some path)
  have valid :=
    (ProtocolFile.readStatements_wellFormed _ (.ofSource (sourceText ((tree.file? path).getD []))) start rfl).2
  rw [parse, ProtocolFile.read, Option.map_eq_none_iff]
  exact ⟨valid, ProtocolFile.readStatements_file _ _⟩

namespace Library

variable (l : Library) (tree : FileTree) (name : Text)

def invalid (name : Text) (file : Option Text) : Failure := .fault { cause := .fileInvalid name, file := file }

theorem load_of_cached (f : ProtocolFile) (h : l.cached name = some f) :
    l.load tree name = (if f.valid then .ok f else .error (invalid name f.file), l) := by
  rw [load, h]
  cases valid : f.valid with
  | true => simp [valid]
  | false => simp [valid, invalid]

theorem load_of_missing (fault : Fault) (h : l.cached name = none) (missing : l.findFile tree name = .error fault) :
    l.load tree name = (.error (.fault fault), l) := by
  simp only [load, h, missing]

theorem load_of_found (path : Text) (h : l.cached name = none) (found : l.findFile tree name = .ok path) :
    l.load tree name =
      (match (tree.parse path).2 with
        | none => .ok (tree.parse path).1
        | some e => .error (e.mapFault (·.addNote none (.inInvalidFile name))),
      { l with files := l.files ++ [(name, (tree.parse path).1)] }) := by
  simp only [load, h, found, FileTree.parse]
  cases (ProtocolFile.read (sourceText ((tree.file? path).getD [])) (some path)).2 with
  | none => rfl
  | some e => rfl

theorem load_library : (l.load tree name).2 = l ∨
    l.cached name = none ∧ ∃ f, (l.load tree name).2 = { l with files := l.files ++ [(name, f)] } := by
  cases h : l.cached name with
  | some f => exact .inl (by rw [load_of_cached l tree name f h])
  | none =>
    cases found : l.findFile tree name with
    | error fault => exact .inl (by rw [load_of_missing l tree name fault h found])
    | ok path => exact .inr ⟨rfl, _, by rw [load_of_found l tree name path h found]⟩

theorem cached_eq_none_iff : l.cached name = none ↔ ∀ e ∈ l.files, ¬ name <+: e.1 := by
  rw [cached, Option.map_eq_none_iff, Option.or_eq_none_iff, List.find?_eq_none, List.find?_eq_none]
  simp only [List.isPrefixOf_iff_prefix, beq_iff_eq]
  exact ⟨fun h => h.2, fun h => ⟨fun e he same => h e he (by simp [same]), h⟩⟩

theorem mem_of_cached (f : ProtocolFile) (h : l.cached name = some f) : ∃ e ∈ l.files, name <+: e.1 ∧ e.2 = f := by
  obtain ⟨e, he, rfl⟩ := Option.map_eq_some_iff.mp h
  refine ⟨e, ?_⟩
  rcases Option.or_eq_some_iff.mp he with exact | ⟨-, longer⟩
  · have same : e.1 = name := by simpa using List.find?_some exact
    exact ⟨List.mem_of_find?_eq_some exact, by simp [same], rfl⟩
  · exact ⟨List.mem_of_find?_eq_some longer, by simpa using List.find?_some longer, rfl⟩

theorem ne_of_cached (key : Text) (f : ProtocolFile) (h : l.cached name = some f) (fresh : l.cached key = none) :
    key ≠ name := by
  rintro rfl
  rw [h] at fresh
  cases fresh

theorem cached_append (key : Text) (f g : ProtocolFile) (h : l.cached name = some f) (fresh : l.cached key = none) :
    { l with files := l.files ++ [(key, g)] }.cached name = some f := by
  have other : ([(key, g)].find? fun e => e.1 == name) = none := by
    simpa using l.ne_of_cached name key f h fresh
  rw [cached, List.find?_append, List.find?_append, other, Option.or_none]
  rw [cached] at h
  obtain ⟨e, he, rfl⟩ := Option.map_eq_some_iff.mp h
  rcases Option.or_eq_some_iff.mp he with exact | ⟨exact, longer⟩
  · rw [exact, Option.some_or, Option.map_some]
  · rw [exact, longer, Option.none_or, Option.some_or, Option.map_some]

/-- The second library has every file that the first one has, under the same names. -/
structure Keeps (l m : Library) : Prop where
  path : m.path = l.path
  cached : ∀ name f, l.cached name = some f → m.cached name = some f

theorem keeps_refl : l.Keeps l := ⟨rfl, fun _ _ h => h⟩

variable {l} in
theorem Keeps.trans {m n : Library} (first : l.Keeps m) (second : m.Keeps n) : l.Keeps n :=
  ⟨second.path.trans first.path, fun name f h => second.cached name f (first.cached name f h)⟩

theorem load_keeps : l.Keeps (l.load tree name).2 := by
  rcases l.load_library tree name with same | ⟨fresh, f, added⟩
  · rw [same]
    exact l.keeps_refl
  · rw [added]
    exact ⟨rfl, fun other g h => l.cached_append other name g f h fresh⟩

theorem load_nodup (h : (l.files.map Prod.fst).Nodup) : ((l.load tree name).2.files.map Prod.fst).Nodup := by
  rcases l.load_library tree name with same | ⟨fresh, f, added⟩
  · rw [same]
    exact h
  · have new : name ∉ l.files.map Prod.fst := by
      intro mem
      obtain ⟨e, he, rfl⟩ := List.mem_map.mp mem
      exact (l.cached_eq_none_iff e.1).mp fresh e he List.prefix_rfl
    rw [added, List.map_append]
    exact h.append (List.nodup_singleton name) (by simpa using new)

theorem cached_of_found (path : Text) (h : l.cached name = none) (found : l.findFile tree name = .ok path) :
    (l.load tree name).2.cached name = some (tree.parse path).1 := by
  have exact : (l.files.find? fun e => e.1 == name) = none := by
    rw [List.find?_eq_none]
    intro e he same
    rw [beq_iff_eq] at same
    exact (l.cached_eq_none_iff name).mp h e he (by simp [same])
  rw [load_of_found l tree name path h found, cached, List.find?_append, exact]
  simp

end Library

namespace Host

theorem load_library (h : Host) (tree : FileTree) (file : Text) :
    (h.load tree file).host.library = (h.library.load tree file).2 := rfl

theorem respond_library (h : Host) (tree : FileTree) (r : Request) :
    (h.respond tree r).2.library = h.library.free ∧ r = .free ∨
      ∃ file, r.file? = some file ∧ (h.respond tree r).2.library = (h.library.load tree file).2 := by
  cases asks : r.file? with
  | some file => exact .inr ⟨file, rfl, by rw [h.respond_eq tree r file asks, load_library]⟩
  | none =>
    cases r with
    | free => exact .inl ⟨rfl, rfl⟩
    | load | instantiate | compile => cases asks

theorem after_nodup (h : Host) (steps : List (FileTree × Request)) (distinct : (h.library.files.map Prod.fst).Nodup) :
    ((h.after steps).library.files.map Prod.fst).Nodup := by
  induction steps generalizing h with
  | nil => exact distinct
  | cons step steps ih =>
    obtain ⟨tree, r⟩ := step
    refine ih _ ?_
    rcases h.respond_library tree r with ⟨freed, -⟩ | ⟨file, -, loaded⟩
    · rw [freed]
      exact List.nodup_nil
    · rw [loaded]
      exact h.library.load_nodup tree file distinct

theorem after_keeps (h : Host) (steps : List (FileTree × Request)) (remembers : .free ∉ steps.map Prod.snd) :
    h.library.Keeps (h.after steps).library := by
  induction steps generalizing h with
  | nil => exact h.library.keeps_refl
  | cons step steps ih =>
    obtain ⟨tree, r⟩ := step
    rw [List.map_cons, List.mem_cons, not_or] at remembers
    refine Library.Keeps.trans ?_ (ih _ remembers.2)
    rcases h.respond_library tree r with ⟨-, rfl⟩ | ⟨file, -, loaded⟩
    · exact absurd rfl remembers.1
    · rw [loaded]
      exact h.library.load_keeps tree file

theorem respond_load_of_cached (h : Host) (tree : FileTree) (name : Text) (f : ProtocolFile)
    (kept : h.library.cached name = some f) :
    h.respond tree (.load name) = (if f.valid then .ok (.file f) else .error (Library.invalid name f.file), h) := by
  rw [h.respond_eq tree (.load name) name rfl, load, h.library.load_of_cached tree name f kept]
  cases f.valid with
  | true => rfl
  | false => rfl

/-- A file that has been loaded, or could not be read, stays what it was until the host forgets all files. -/
theorem after_respond_load (h : Host) (name : Text) (f : ProtocolFile)
    (later : List (FileTree × Request)) (kept : h.library.cached name = some f) (remembers : .free ∉ later.map Prod.snd)
    (tree' : FileTree) :
    (h.after later).respond tree' (.load name) =
      (if f.valid then .ok (.file f) else .error (Library.invalid name f.file), h.after later) :=
  (h.after later).respond_load_of_cached tree' name f ((h.after_keeps later remembers).cached name f kept)

theorem cached_of_respond (h : Host) (tree : FileTree) (name : Text) (f : ProtocolFile)
    (loaded : (h.respond tree (.load name)).1 = .ok (.file f)) :
    f.valid = true ∧ (h.respond tree (.load name)).2.library.cached name = some f := by
  rw [h.respond_eq tree (.load name) name rfl] at loaded ⊢
  rw [load_library]
  obtain ⟨g, hg, same⟩ := (Except.bind_eq_ok_iff _ _ _).mp loaded
  cases same
  replace hg : (h.library.load tree name).1 = .ok f := hg
  cases kept : h.library.cached name with
  | some g =>
    rw [h.library.load_of_cached tree name g kept] at hg ⊢
    cases valid : g.valid with
    | true =>
      rw [valid] at hg
      cases hg
      exact ⟨valid, kept⟩
    | false =>
      rw [valid] at hg
      cases hg
  | none =>
    cases found : h.library.findFile tree name with
    | error fault =>
      rw [h.library.load_of_missing tree name fault kept found] at hg
      cases hg
    | ok path =>
      rw [h.library.cached_of_found tree name path kept found]
      rw [h.library.load_of_found tree name path kept found] at hg
      cases parsed : (tree.parse path).2 with
      | none =>
        simp only [parsed] at hg
        cases hg
        exact ⟨(tree.parse_spec path).1.mpr parsed, rfl⟩
      | some e =>
        simp only [parsed] at hg
        cases hg

theorem after_compiler (h : Host) (steps : List (FileTree × Request)) : (h.after steps).compiler = h.compiler := by
  induction steps generalizing h with
  | nil => rfl
  | cons step steps ih =>
    obtain ⟨tree, r⟩ := step
    refine (ih _).trans ?_
    cases asks : r.file? with
    | some file => rw [h.respond_eq tree r file asks, load_compiler]
    | none =>
      cases r with
      | free => rfl
      | load | instantiate | compile => cases asks

end Host

theorem Cause.Usual.not_fileNotFound {c : Cause} (h : c.Usual) : c.kind ≠ .fileNotFound := by
  intro missing
  have kind := h.kind
  rw [missing] at kind
  cases kind

theorem Request.answer_blames (k : Compiler) (f : ProtocolFile) (r : Request)
    (converter : ∀ text mode, Blames (fun c => c.kind ≠ .fileNotFound) (k.converter text mode)) :
    Blames (fun c => c.kind ≠ .fileNotFound) (r.answer k f) := by
  have usual (c : Cause) (h : c.Usual) : c.kind ≠ .fileNotFound := h.not_fileNotFound
  cases r with
  | load name => exact blames_ok _
  | instantiate name text => exact ((f.instantiate_usual text).mono usual).map _
  | compile name text =>
    refine (((f.instantiate_usual text).mono usual).bind fun p _ => ?_).map _
    have deep : (Cause.nestedTooDeep k.depthLimit).kind ≠ .fileNotFound :=
      show FaultKind.recursionDepth ≠ .fileNotFound by decide
    have bare : Cause.backslashAtEnd.kind ≠ .fileNotFound := by decide
    refine (Compiler.compileProtocol_blames usual converter deep bare p).bind fun c _ => ?_
    exact ((p.requireUsed_usual _).mono usual).bind fun _ _ => blames_ok _
  | free => exact blames_ok _

namespace Host

theorem respond_not_found (h : Host) (tree : FileTree) (r : Request) (f : Fault)
    (converter : ∀ text mode, Blames (fun c => c.kind ≠ .fileNotFound) (h.compiler.converter text mode))
    (failed : (h.respond tree r).1 = .error (.fault f)) (missing : f.kind = .fileNotFound) :
    (h.respond tree r).2 = h := by
  cases asks : r.file? with
  | none =>
    cases r with
    | free => cases failed
    | load | instantiate | compile => cases asks
  | some file =>
    rw [h.respond_eq tree r file asks] at failed ⊢
    cases kept : h.library.cached file with
    | some g => rw [load, h.library.load_of_cached tree file g kept]
    | none =>
      cases found : h.library.findFile tree file with
      | error fault => rw [load, h.library.load_of_missing tree file fault kept found]
      | ok path =>
        have loaded : Blames (fun c => c.kind ≠ .fileNotFound) (h.load tree file).result := by
          rw [load, h.library.load_of_found tree file path kept found]
          dsimp only
          split
          · exact blames_ok _
          · next e read =>
            rintro g hg
            cases e with
            | fault e =>
              cases hg
              exact (ProtocolFile.read_usual _ _ e read).not_fileNotFound
            | crash => cases hg
        exact absurd missing (loaded.bind (fun g _ => r.answer_blames h.compiler g converter) f failed)

/-- What a host keeps is stable until it forgets all files, whatever happens to the files on disk in the meantime:

- it keeps one file under each name,
- a request that finds no file changes nothing,
- a file that has been loaded is loaded again as it was,
- and a file that could not be read is not read again. -/
theorem after_stable (h : Host) (fresh : h.library.files = [])
    (converter : ∀ text mode, Blames (fun c => c.kind ≠ .fileNotFound) (h.compiler.converter text mode))
    (steps : List (FileTree × Request)) :
    let now := h.after steps
    (now.library.files.map Prod.fst).Nodup ∧
      (∀ tree r f, (now.respond tree r).1 = .error (.fault f) → f.kind = .fileNotFound → (now.respond tree r).2 = now) ∧
      (∀ tree name f later, (now.respond tree (.load name)).1 = .ok (.file f) → .free ∉ later.map Prod.snd →
        let last := (now.respond tree (.load name)).2.after later
        ∀ tree', last.respond tree' (.load name) = (.ok (.file f), last)) ∧
      ∀ tree r name path later, r.file? = some name → now.library.cached name = none →
        now.library.findFile tree name = .ok path → (tree.parse path).2 ≠ none → .free ∉ later.map Prod.snd →
        let last := (now.respond tree r).2.after later
        ∀ tree', last.respond tree' (.load name) = (.error (Library.invalid name (some path)), last) := by
  intro now
  refine ⟨?_, ?_, ?_, ?_⟩
  · refine h.after_nodup steps ?_
    rw [fresh]
    exact List.nodup_nil
  · intro tree r f failed missing
    refine now.respond_not_found tree r f ?_ failed missing
    rw [h.after_compiler]
    exact converter
  · intro tree name f later loaded remembers last tree'
    obtain ⟨valid, kept⟩ := now.cached_of_respond tree name f loaded
    have again := after_respond_load _ name f later kept remembers tree'
    rwa [valid] at again
  · intro tree r name path later asks unread found failed remembers last tree'
    -- the request that failed has kept the file all the same
    have kept : (now.respond tree r).2.library.cached name = some (tree.parse path).1 := by
      rw [now.respond_eq tree r name asks, load_library]
      exact now.library.cached_of_found tree name path unread found
    have again := after_respond_load _ name _ later kept remembers tree'
    obtain ⟨valid, file⟩ := tree.parse_spec path
    have broken : (tree.parse path).1.valid = false := by
      rw [← Bool.not_eq_true, valid]
      exact failed
    rwa [broken, file] at again

/-- The first file is replaced by a broken one, the second one is repaired, and the third one is missing. -/
theorem after_stable_changed :
    let bytes (source : String) : Option Bytes := some (Text.utf8 source.toList)
    let tree := FileTree.ofFiles [(['a'], bytes "p \x7b wait 1; \x7d"), (['b'], bytes "p \x7b")]
    let changed := FileTree.ofFiles [(['a'], bytes "\x7d"), (['b'], bytes "p \x7b wait 2; \x7d")]
    let now := ({} : Host).after [(tree, .load ['b']), (tree, .free)]
    let loaded := (now.respond tree (.load ['a'])).2.after [(changed, .compile ['b'] ['p'])]
    let failed := (now.respond tree (.compile ['b'] ['p'])).2.after [(changed, .load ['a'])]
    (∀ text mode, Blames (fun c => c.kind ≠ .fileNotFound) (Format.standard text mode)) ∧
      (now.respond changed (.load ['c'])).1 = .error (.fault { cause := .fileNotFound ['c'] [['.']] }) ∧
      (now.respond changed (.load ['c'])).2 = now ∧
      (tree.parse "./a".toList).2 = none ∧
      loaded.respond changed (.load ['a']) = (.ok (.file (tree.parse "./a".toList).1), loaded) ∧
      (tree.parse "./b".toList).2 ≠ none ∧
      failed.respond changed (.load ['b']) = (.error (Library.invalid ['b'] (some "./b".toList)), failed) := by
  intro bytes tree changed now loaded failed
  have converter (text : Text) (mode : Mode) :
      Blames (fun c => c.kind ≠ .fileNotFound) (Format.standard text mode) :=
    (Format.standard_usual text mode).mono fun _ h => h.not_fileNotFound
  obtain ⟨-, missing, kept, unread⟩ := after_stable {} rfl converter [(tree, .load ['b']), (tree, .free)]
  have absent : (now.respond changed (.load ['c'])).1 = .error (.fault { cause := .fileNotFound ['c'] [['.']] }) := by
    decide +kernel
  have broken : (tree.parse "./b".toList).2 ≠ none := by decide +kernel
  refine ⟨converter, absent, missing changed _ _ absent rfl, by decide +kernel, ?_, broken, ?_⟩
  · exact kept tree ['a'] _ [(changed, .compile ['b'] ['p'])] (by decide +kernel) (by decide) changed
  · exact unread tree (.compile ['b'] ['p']) ['b'] "./b".toList [(changed, .load ['a'])] rfl (by decide +kernel)
      (by decide +kernel) broken (by decide) changed

end Host

end DeviceProtocol
