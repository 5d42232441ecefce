import DeviceProtocol.Proofs.HostRequests
import Mathlib.Data.List.DropRight
set_option autoImplicit false

namespace DeviceProtocol

namespace Library

variable {l start : Library} {tree : FileTree} {names : List Text} {name : Text}

/-- The file is there and cannot be read. -/
def Broken (l : Library) (tree : FileTree) (name path : Text) : Prop :=
  l.findFile tree name = .ok path ∧ (tree.parse path).2 ≠ none

theorem findFile_of_path (l m : Library) (tree : FileTree) (name : Text) (same : l.path = m.path) :
    l.findFile tree name = m.findFile tree name := by
  simp only [findFile, candidates, same]

/-- The library keeps what is found in the tree under these names, and nothing else. -/
structure Mirrors (l start : Library) (tree : FileTree) (names : List Text) : Prop where
  path : l.path = start.path
  sound : ∀ e ∈ l.files, e.1 ∈ names ∧ ∃ path, start.findFile tree e.1 = .ok path ∧ e.2 = (tree.parse path).1
  complete : ∀ name ∈ names, ∀ path, start.findFile tree name = .ok path → ∃ f, (name, f) ∈ l.files

theorem Mirrors.of_cached (hm : l.Mirrors start tree names) (apart : ∀ other ∈ names, name <+: other → name = other)
    (f : ProtocolFile) (kept : l.cached name = some f) :
    name ∈ names ∧ (name, f) ∈ l.files ∧ ∃ path, start.findFile tree name = .ok path ∧ f = (tree.parse path).1 := by
  obtain ⟨⟨key, g⟩, mem, longer, same⟩ := l.mem_of_cached name f kept
  obtain ⟨known, path, found, parsed⟩ := hm.sound _ mem
  dsimp only at longer same known found parsed
  obtain rfl := apart key known longer
  obtain rfl := same
  exact ⟨known, mem, path, found, parsed⟩

theorem Mirrors.load (hm : l.Mirrors start tree names) (apart : ∀ other ∈ names, name <+: other → name = other) :
    (l.load tree name).2.Mirrors start tree (names ++ [name]) := by
  have known (e : Text × ProtocolFile) (he : e ∈ l.files) : e.1 ∈ names ++ [name] :=
    List.mem_append_left _ (hm.sound e he).1
  cases kept : l.cached name with
  | some f =>
    rw [l.load_of_cached tree name f kept]
    refine ⟨hm.path, fun e he => ⟨known e he, (hm.sound e he).2⟩, fun other mem path found => ?_⟩
    rcases List.mem_append.mp mem with mem | mem
    · exact hm.complete other mem path found
    · obtain rfl := List.mem_singleton.mp mem
      exact ⟨f, (hm.of_cached apart f kept).2.1⟩
  | none =>
    cases found : l.findFile tree name with
    | error fault =>
      rw [l.load_of_missing tree name fault kept found]
      refine ⟨hm.path, fun e he => ⟨known e he, (hm.sound e he).2⟩, fun other mem path there => ?_⟩
      rcases List.mem_append.mp mem with mem | mem
      · exact hm.complete other mem path there
      · obtain rfl := List.mem_singleton.mp mem
        rw [← findFile_of_path l start tree other hm.path, found] at there
        cases there
    | ok path =>
      rw [l.load_of_found tree name path kept found]
      rw [findFile_of_path l start tree name hm.path] at found
      refine ⟨hm.path, ?_, ?_⟩
      · intro e he
        rcases List.mem_append.mp he with he | he
        · exact ⟨known e he, (hm.sound e he).2⟩
        · obtain rfl := List.mem_singleton.mp he
          exact ⟨by simp, path, found, rfl⟩
      · intro other mem there hthere
        rcases List.mem_append.mp mem with mem | mem
        · obtain ⟨f, hf⟩ := hm.complete other mem there hthere
          exact ⟨f, List.mem_append_left _ hf⟩
        · obtain rfl := List.mem_singleton.mp mem
          exact ⟨_, List.mem_append_right _ (List.mem_singleton.mpr rfl)⟩

theorem Mirrors.load_result (hm : l.Mirrors start tree names) (fresh : start.files = [])
    (apart : ∀ other ∈ names, name <+: other → name = other) :
    (∀ path, start.Broken tree name path → name ∈ names → (l.load tree name).1 = .error (invalid name (some path))) ∧
      ((¬ ∃ path, start.Broken tree name path ∧ name ∈ names) → (l.load tree name).1 = (start.load tree name).1) := by
  have unread : start.cached name = none := by
    rw [cached_eq_none_iff, fresh]
    simp
  cases kept : l.cached name with
  | some f =>
    obtain ⟨known, -, path, found, rfl⟩ := hm.of_cached apart f kept
    obtain ⟨valid, file⟩ := tree.parse_spec path
    rw [l.load_of_cached tree name _ kept, file, start.load_of_found tree name path unread found]
    cases parsed : (tree.parse path).2 with
    | none =>
      rw [valid.mpr parsed]
      refine ⟨?_, fun _ => rfl⟩
      rintro other ⟨hother, broken⟩ _
      rw [found] at hother
      cases hother
      exact absurd parsed broken
    | some e =>
      have broken : (tree.parse path).2 ≠ none := by rw [parsed]; simp
      rw [Bool.eq_false_iff.mpr (mt valid.mp broken)]
      refine ⟨?_, fun sane => absurd ⟨path, ⟨found, broken⟩, known⟩ sane⟩
      rintro other ⟨hother, -⟩ _
      rw [found] at hother
      cases hother
      rfl
  | none =>
    refine ⟨?_, fun _ => ?_⟩
    · rintro path ⟨found, -⟩ known
      -- a file that was asked for and found would be kept
      obtain ⟨f, hf⟩ := hm.complete name known path found
      exact absurd List.prefix_rfl ((l.cached_eq_none_iff name).mp kept _ hf)
    · cases found : start.findFile tree name with
      | error fault =>
        rw [start.load_of_missing tree name fault unread found]
        rw [← findFile_of_path l start tree name hm.path] at found
        rw [l.load_of_missing tree name fault kept found]
      | ok path =>
        rw [start.load_of_found tree name path unread found]
        rw [← findFile_of_path l start tree name hm.path] at found
        rw [l.load_of_found tree name path kept found]

end Library

namespace Host

theorem after_append (h : Host) (steps more : List (FileTree × Request)) :
    h.after (steps ++ more) = (h.after steps).after more := by
  induction steps generalizing h with
  | nil => rfl
  | cons step steps ih => exact ih _

theorem after_mirrors (h : Host) (fresh : h.library.files = []) (tree : FileTree) (requests : List Request)
    (apart : ∀ a ∈ requests.filterMap Request.file?, ∀ b ∈ requests.filterMap Request.file?, a <+: b → a = b) :
    (h.after (requests.map (tree, ·))).library.Mirrors h.library tree
      ((requests.rtakeWhile (· ≠ .free)).filterMap Request.file?) := by
  induction requests using List.reverseRecOn with
  | nil => exact ⟨rfl, by simp [after, fresh], by simp⟩
  | append_singleton earlier r ih =>
    rw [List.filterMap_append] at apart
    have before := ih fun a ha b hb => apart a (List.mem_append_left _ ha) b (List.mem_append_left _ hb)
    have last : h.after ((earlier ++ [r]).map (tree, ·)) =
        ((h.after (earlier.map (tree, ·))).respond tree r).2 := by
      rw [List.map_append, after_append]
      rfl
    rw [last]
    rcases (h.after (earlier.map (tree, ·))).respond_library tree r with ⟨freed, rfl⟩ | ⟨file, asks, loaded⟩
    · rw [freed]
      exact ⟨before.path, by simp [Library.free], by simp⟩
    · have requested : List.filterMap Request.file? [r] = [file] := by simp [asks]
      have remembers : r ≠ .free := by
        rintro rfl
        cases asks
      have recent : (earlier ++ [r]).rtakeWhile (· ≠ .free) = earlier.rtakeWhile (· ≠ .free) ++ [r] := by
        simp [remembers]
      rw [loaded, recent, List.filterMap_append, requested]
      refine before.load fun other mem => apart file ?_ other ?_
      · simp [requested]
      · exact List.mem_append_left _ (((earlier.rtakeWhile_suffix _).sublist.filterMap _).subset mem)

/-- While the files on disk stay as they are, a request is answered as if it were the first one. The exception is a file
that could not be read when it was asked for before, since the host last forgot all files: that is told from then on. -/
theorem respond_as_first (h : Host) (fresh : h.library.files = []) (tree : FileTree) (earlier : List Request)
    (r : Request)
    (apart : ∀ a ∈ (earlier ++ [r]).filterMap Request.file?, ∀ b ∈ (earlier ++ [r]).filterMap Request.file?,
      a <+: b → a = b) :
    let now := h.after (earlier.map (tree, ·))
    let recent := earlier.rtakeWhile (· ≠ .free)
    (∀ name path, r.file? = some name → h.library.Broken tree name path → (∃ q ∈ recent, q.file? = some name) →
        (now.respond tree r).1 = .error (Library.invalid name (some path))) ∧
      ((¬ ∃ name path, r.file? = some name ∧ h.library.Broken tree name path ∧ ∃ q ∈ recent, q.file? = some name) →
        (now.respond tree r).1 = (h.respond tree r).1) := by
  intro now recent
  rw [List.filterMap_append] at apart
  have mirrors : now.library.Mirrors h.library tree (recent.filterMap Request.file?) :=
    h.after_mirrors fresh tree earlier fun a ha b hb =>
      apart a (List.mem_append_left _ ha) b (List.mem_append_left _ hb)
  cases asks : r.file? with
  | none =>
    cases r with
    | free =>
      refine ⟨fun name path asks => ?_, fun _ => rfl⟩
      cases asks
    | load | instantiate | compile => cases asks
  | some name =>
    have requested : List.filterMap Request.file? [r] = [name] := by simp [asks]
    have apart' : ∀ other ∈ recent.filterMap Request.file?, name <+: other → name = other := fun other mem =>
      apart name (by simp [requested]) other
        (List.mem_append_left _ (((earlier.rtakeWhile_suffix _).sublist.filterMap _).subset mem))
    obtain ⟨broken, sane⟩ := mirrors.load_result fresh apart'
    have compiler : now.compiler = h.compiler := h.after_compiler _
    have result (host : Host) : (host.load tree name).result = (host.library.load tree name).1 := rfl
    rw [now.respond_eq tree r name asks, h.respond_eq tree r name asks, compiler, result, result]
    refine ⟨?_, fun other => ?_⟩
    · rintro _ path ⟨⟩ failed before
      rw [broken path failed (List.mem_filterMap.mpr before)]
      rfl
    · rw [sane]
      rintro ⟨path, failed, before⟩
      exact other ⟨name, path, rfl, failed, List.mem_filterMap.mp before⟩

theorem respond_as_first_broken :
    let bytes (source : String) : Option Bytes := some (Text.utf8 source.toList)
    let tree := FileTree.ofFiles [(['a'], bytes "p \x7b wait 1; \x7d"), (['b'], bytes "p \x7b")]
    let earlier : List Request := [.compile ['b'] ['p'], .free, .load ['a'], .load ['b']]
    let now := ({} : Host).after (earlier.map (tree, ·))
    let again : Request := .instantiate ['b'] ['p']
    ({} : Library).Broken tree ['b'] "./b".toList ∧
      (now.respond tree again).1 = .error (Library.invalid ['b'] (some "./b".toList)) ∧
      (({} : Host).respond tree again).1 ≠ .error (Library.invalid ['b'] (some "./b".toList)) ∧
      (now.respond tree (.compile ['a'] ['p'])).1 = (({} : Host).respond tree (.compile ['a'] ['p'])).1 := by
  intro bytes tree earlier now again
  have broken : ({} : Library).Broken tree ['b'] "./b".toList := by
    constructor
    · decide +kernel
    · decide +kernel
  refine ⟨broken, ?_, ?_, ?_⟩
  · exact (respond_as_first {} rfl tree earlier again (by decide +kernel)).1 ['b'] _ rfl broken
      ⟨.load ['b'], by decide, rfl⟩
  · decide +kernel
  · refine (respond_as_first {} rfl tree earlier (.compile ['a'] ['p']) (by decide +kernel)).2 ?_
    rintro ⟨_, path, ⟨⟩, ⟨found, failed⟩, -⟩
    have there : ({} : Library).findFile tree ['a'] = .ok "./a".toList := by decide +kernel
    cases there.symm.trans found
    exact failed (by decide +kernel)

end Host
end DeviceProtocol
