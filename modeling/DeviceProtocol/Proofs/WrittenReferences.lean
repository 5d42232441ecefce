import DeviceProtocol.Proofs.Consulted
import DeviceProtocol.Proofs.Outline
set_option autoImplicit false

namespace DeviceProtocol

open Traced (Obeys)

theorem dropTrailingBlanks_subset (ts : List Token) : Scanner.dropTrailingBlanks ts ⊆ ts := by
  intro t ht
  rw [Scanner.dropTrailingBlanks, List.mem_reverse] at ht
  exact List.mem_reverse.mp (List.dropWhile_subset _ ht)

namespace Protocol

variable {p : Protocol} {N : Text → Prop}

theorem settleAfter_obeys (hp : p.Refers N) (front ts : List Token) (hfront : RefersTo N front) (h : RefersTo N ts) :
    (p.settleAfter front ts).Obeys (p.Found N) (RefersTo N) := by
  induction ts generalizing front with
  | nil => exact .pure hfront
  | cons t ts ih =>
    rw [refersTo_cons] at h
    have keep : RefersTo N (front ++ [t]) :=
      (refersTo_append ..).mpr ⟨hfront, (refersTo_cons ..).mpr ⟨h.1, refersTo_nil N⟩⟩
    rw [settleAfter]
    split
    · next reference =>
      refine .bind (.ofExcept fun _ _ => trivial) ?_
      intro i _
      cases i with
      | some i => exact ih _ keep h.2
      | none =>
        refine .bind (resolve_obeys hp t (h.1 reference)) ?_
        intro value hvalue
        exact ih _ ((refersTo_append ..).mpr ⟨hfront, hvalue⟩) h.2
    · split
      · exact ih _ hfront h.2
      · exact ih _ keep h.2

theorem settle_obeys (hp : p.Refers N) (ts : List Token) (h : RefersTo N ts) :
    (p.settle ts).Obeys (p.Found N) (RefersTo N) := by
  refine .bind (settleAfter_obeys hp [] ts (refersTo_nil N) h) ?_
  intro value hvalue
  exact .pure (hvalue.subset (dropTrailingBlanks_subset value))

theorem touch_refers (hp : p.Refers N) (uses : List Use) : (p.touch uses).Refers N := by
  refine ⟨hp.commands, ?_⟩
  intro b hb
  obtain ⟨c, hc, rfl⟩ := List.mem_map.mp hb
  exact hp.bindings c hc

theorem mem_assign (p : Protocol) (name : Text) (line : Int) (value : List Token) (b : Binding)
    (h : b ∈ (p.assign name line value).bindings) :
    (b.value = value ∨ ∃ c ∈ p.bindings, b.value = c.value) ∧
      (b.used = false ∨ ∃ c ∈ p.bindings, b.name = c.name ∧ b.used = c.used) := by
  obtain ⟨d, hd, rfl⟩ := List.mem_map.mp h
  have declared : (d.value = [] ∧ d.name = Text.lower name ∧ d.used = false) ∨
      ∃ c ∈ p.bindings, d.name = c.name ∧ d.value = c.value ∧ d.used = c.used := by
    rw [declare] at hd
    split at hd
    · obtain ⟨c, hc, rfl⟩ := List.mem_map.mp hd
      refine .inr ⟨c, hc, ?_⟩
      split <;> exact ⟨rfl, rfl, rfl⟩
    · rcases List.mem_append.mp hd with hd | hd
      · exact .inr ⟨d, hd, rfl, rfl, rfl⟩
      · cases List.mem_singleton.mp hd
        exact .inl ⟨rfl, rfl, rfl⟩
  by_cases same : d.name = Text.lower name
  · simp only [same, if_true, true_or, true_and]
    rcases declared with ⟨-, -, used⟩ | ⟨c, hc, hname, -, used⟩
    · exact .inl used
    · exact .inr ⟨c, hc, same.symm.trans hname, used⟩
  · simp only [same, if_false]
    rcases declared with ⟨-, hname, -⟩ | ⟨c, hc, hname, hvalue, used⟩
    · exact absurd hname same
    · exact ⟨.inr ⟨c, hc, hvalue⟩, .inr ⟨c, hc, hname, used⟩⟩

theorem assign_refers (hp : p.Refers N) (name : Text) (line : Int) (value : List Token) (h : RefersTo N value) :
    (p.assign name line value).Refers N := by
  have commands : (p.assign name line value).commands = p.commands := by
    simp only [assign, declare]
    split <;> rfl
  refine ⟨commands ▸ hp.commands, ?_⟩
  intro b hb
  rcases (p.mem_assign name line value b hb).1 with hv | ⟨c, hc, hv⟩
  · rw [hv]
    exact h
  · rw [hv]
    exact hp.bindings c hc

theorem addCommands_refers (hp : p.Refers N) (ts : List Token) (h : RefersTo N ts) : (p.addCommands ts).Refers N :=
  ⟨(refersTo_append ..).mpr ⟨hp.commands, h⟩, hp.bindings⟩

theorem copy_refers (hp : p.Refers N) (name : Text) (line : Int) (arguments : List Text) :
    (p.copy name line arguments).Refers N := by
  refine ⟨?_, hp.bindings⟩
  simp only [copy]
  split <;> exact hp.commands

end Protocol

theorem ProtocolFile.mem_of_findIn {protocols : List Protocol} {name : Text} {p : Protocol}
    (h : findIn protocols name = some p) : p ∈ protocols := by
  rw [findIn, Option.or_eq_some_iff] at h
  rcases h with h | ⟨-, h⟩
  · exact List.mem_of_find?_eq_some h
  · exact List.mem_of_find?_eq_some h

theorem WrittenCommand.tokens_refersTo {N : Text → Prop} (protocols : List Protocol) (c : WrittenCommand)
    (hps : ∀ p ∈ protocols, p.Refers N) (h : RefersTo N c.arguments) : RefersTo N (c.tokens protocols) := by
  rw [tokens]
  split
  · next p found =>
    have mem : p ∈ protocols := by
      split at found
      · exact ProtocolFile.mem_of_findIn found
      · cases found
    exact (hps p mem).commands
  · refine (refersTo_append ..).mpr ⟨(refersTo_cons ..).mpr ⟨by simp, h⟩, ?_⟩
    exact (refersTo_cons ..).mpr ⟨by simp, refersTo_nil N⟩

theorem flatMap_tokens_refersTo {N : Text → Prop} (protocols : List Protocol) (cs : List WrittenCommand)
    (hps : ∀ p ∈ protocols, p.Refers N) (h : RefersTo N (cs.flatMap WrittenCommand.arguments)) :
    RefersTo N (cs.flatMap (WrittenCommand.tokens protocols)) := by
  intro t ht
  obtain ⟨c, hc, ht⟩ := List.mem_flatMap.mp ht
  refine c.tokens_refersTo protocols hps ?_ t ht
  exact h.subset fun u hu => List.mem_flatMap.mpr ⟨c, hc, hu⟩

namespace Protocol

theorem build?_keeps (I : Protocol → Prop) (protocols : List Protocol) (items : List BodyItem)
    (step : ∀ item ∈ items, ∀ p q, I p → extend? protocols p item = some q → I q) (p q : Protocol) (hp : I p)
    (h : p.build? protocols items = some q) : I q := by
  induction items generalizing p with
  | nil =>
    cases h
    exact hp
  | cons item items ih =>
    rw [List.forall_mem_cons] at step
    obtain ⟨p₁, first, rest⟩ := Option.bind_eq_some_iff.mp h
    exact ih step.2 p₁ (step.1 p p₁ hp first) rest

theorem settled?_eq_some_iff (p q : Protocol) (name : Text) (line : Int) (value : List Token) :
    p.settled? name line value = some q ↔
      ∃ ts, (p.settle value).result = .ok ts ∧ q = (p.touch (p.settle value).uses).assign name line ts := by
  rw [settled?]
  cases (p.settle value).result with
  | error e => simp
  | ok ts => simp [eq_comm]

variable {N : Text → Prop}

theorem settled?_refers (p q : Protocol) (name : Text) (line : Int) (value : List Token) (hp : p.Refers N)
    (h : RefersTo N value) (hq : p.settled? name line value = some q) : q.Refers N := by
  obtain ⟨ts, settled, rfl⟩ := (p.settled?_eq_some_iff q name line value).mp hq
  have hts := (settle_obeys hp value h).result ts settled
  exact assign_refers (touch_refers hp _) name line ts hts

theorem extend?_refers (protocols : List Protocol) (item : BodyItem) (p q : Protocol)
    (hps : ∀ r ∈ protocols, r.Refers N) (hp : p.Refers N) (h : RefersTo N item.values)
    (hq : extend? protocols p item = some q) : q.Refers N := by
  cases item with
  | assignment name line value => exact p.settled?_refers q name line value hp h hq
  | handler name line cs =>
    cases hq
    exact assign_refers hp name line _ (flatMap_tokens_refersTo protocols cs hps h)
  | command c =>
    cases hq
    exact addCommands_refers hp _ (c.tokens_refersTo protocols hps h)

theorem build?_refers (protocols : List Protocol) (items : List BodyItem) (p q : Protocol)
    (hps : ∀ r ∈ protocols, r.Refers N) (hp : p.Refers N) (h : RefersTo N (items.flatMap BodyItem.values))
    (hq : p.build? protocols items = some q) : q.Refers N := by
  refine build?_keeps (fun r => r.Refers N) protocols items ?_ p q hp hq
  intro item hitem p q hp hq
  exact extend?_refers protocols item p q hps hp (h.subset fun t ht => List.mem_flatMap.mpr ⟨item, hitem, ht⟩) hq

end Protocol

namespace ProtocolFile

structure Refers (f : ProtocolFile) (N : Text → Prop) : Prop where
  globals : f.globals.Refers N
  protocols : ∀ p ∈ f.protocols, p.Refers N

theorem build?_keeps (I : ProtocolFile → Prop) (statements : List Statement)
    (step : ∀ statement ∈ statements, ∀ f g, I f → extend? f statement = some g → I g) (f g : ProtocolFile) (hf : I f)
    (h : f.build? statements = some g) : I g := by
  induction statements generalizing f with
  | nil =>
    cases h
    exact hf
  | cons statement statements ih =>
    rw [List.forall_mem_cons] at step
    obtain ⟨f₁, first, rest⟩ := Option.bind_eq_some_iff.mp h
    exact ih step.2 f₁ (step.1 f f₁ hf first) rest

variable {N : Text → Prop}

theorem template_refers (f : ProtocolFile) (hf : f.Refers N) (name : Text) (line : Int) (parameters : List Text) :
    (f.template name line parameters).Refers N :=
  have copied := Protocol.copy_refers hf.globals name line []
  ⟨copied.commands, copied.bindings⟩

theorem extend?_refers (statement : Statement) (f g : ProtocolFile) (hf : f.Refers N)
    (h : RefersTo N statement.values) (hg : f.extend? statement = some g) : g.Refers N := by
  cases statement with
  | assignment name line value =>
    obtain ⟨p, hp, rfl⟩ := Option.map_eq_some_iff.mp hg
    exact ⟨f.globals.settled?_refers p name line value hf.globals h hp, hf.protocols⟩
  | handler name line cs =>
    cases hg
    exact ⟨Protocol.assign_refers hf.globals name line _ (flatMap_tokens_refersTo f.protocols cs hf.protocols h),
      hf.protocols⟩
  | definition name line parameters items =>
    obtain ⟨-, p, hp, rfl⟩ := (f.extend?_definition g name line parameters items).mp hg
    refine ⟨hf.globals, List.forall_mem_append.mpr ⟨hf.protocols, ?_⟩⟩
    rw [List.forall_mem_singleton]
    exact Protocol.build?_refers f.protocols items _ p hf.protocols (template_refers f hf name line parameters) h hp

theorem empty_refers (file : Option Text) : (empty file).Refers N :=
  ⟨⟨refersTo_nil N, by simp [empty]⟩, by simp [empty]⟩

theorem ofSource_refers (source : Text) (file : Option Text) (f : ProtocolFile) (statements : List Statement)
    (written : Scanner.StatementsAt (.ofSource source) statements)
    (h : RefersTo N (statements.flatMap Statement.values)) (hf : ofSource source file = .ok f) : f.Refers N := by
  obtain ⟨statements', g, written', built, rfl⟩ := (ofSource_eq_ok_iff source file f).mp hf
  cases written.unique written'
  have refers : g.Refers N := by
    refine build?_keeps (fun r => r.Refers N) statements ?_ (empty file) g (empty_refers file) built
    intro statement hs f g hf hg
    exact extend?_refers statement f g hf (h.subset fun t ht => List.mem_flatMap.mpr ⟨statement, hs, ht⟩) hg
  exact ⟨refers.globals, refers.protocols⟩

end ProtocolFile
end DeviceProtocol
