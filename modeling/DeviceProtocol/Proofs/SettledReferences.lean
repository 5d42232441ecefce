import DeviceProtocol.Proofs.FileInvariant
set_option autoImplicit false

/-!
Which references are left once a file has been read. In the value of a variable a reference is replaced as soon as it is
read, unless it names a parameter. So all references that are left there name parameters, as long as no reference in the
source can find a handler, whose commands keep their references.
-/
namespace DeviceProtocol

open Traced (Obeys)

theorem isHandlerName_lower (name : Text) (h : isHandlerName name = true) : isHandlerName (Text.lower name) = true := by
  cases name with
  | nil => cases h
  | cons c cs =>
    obtain rfl : c = '@' := by simpa [isHandlerName] using h
    rfl

namespace Protocol

/-- The name is that of a parameter: its digit, or the name it was given. -/
def Positional (p : Protocol) (name : Text) : Prop := ∃ i, p.parameterIndex name = .ok (some i)

/-- All references in the values of variables name parameters. -/
def Settled (p : Protocol) : Prop := ∀ b ∈ p.bindings, b.isHandler = false → RefersTo p.Positional b.value

theorem positional_congr (p q : Protocol) (same : p.parameters = q.parameters) : p.Positional = q.Positional := by
  funext name
  simp only [Positional, parameterIndex, same]

theorem Positional.of_unnamed {p : Protocol} {name : Text} (h : p.Positional name) (unnamed : p.parameters = [])
    (q : Protocol) : q.Positional name := by
  -- without names for parameters there are only their digits, which name parameters everywhere
  obtain ⟨i, index⟩ := h
  refine ⟨i, ?_⟩
  unfold parameterIndex at index ⊢
  rw [unnamed] at index
  split at index
  · split at index
    · next digit =>
      simp only [digit, if_true]
      exact index
    · cases index
  · cases index

variable {p : Protocol}

theorem resolve_positional (t : Token) (h : p.Positional t.text) :
    (p.resolve t).Obeys (fun _ => True) (RefersTo fun _ => False) := by
  obtain ⟨i, index⟩ := h
  rw [resolve, index]
  refine .bind (Q := (· = some i)) (.ofExcept fun _ same => (Except.ok.inj same).symm) ?_
  rintro _ rfl
  dsimp only
  split
  · exact .fail _
  · split
    · exact .fault _ _ _
    · split
      · exact .pure ((refersTo_cons ..).mpr ⟨by simp, refersTo_nil _⟩)
      · exact .pure ((refersTo_cons ..).mpr ⟨by simp, refersTo_nil _⟩)

theorem resolve_settled (hp : p.Settled) (t : Token) (plain : PlainName t.text) :
    (p.resolve t).Obeys (fun _ => True) (RefersTo p.Positional) := by
  by_cases positional : p.Positional t.text
  · exact (resolve_positional t positional).mono (fun _ h => h) fun _ h u hu reference => (h u hu reference).elim
  rw [resolve]
  refine .bind (.ofExcept fun _ index => index) ?_
  intro i index
  cases i with
  | some i => exact absurd ⟨i, index⟩ positional
  | none =>
    refine .bind ((consult_obeys t.text plain).mono (fun _ _ => trivial) fun _ h => h) ?_
    intro b hb
    cases b with
    | none => exact .fault _ _ _
    | some b =>
      have variable_ := p.lookup_plain t.text b plain hb.symm
      have value := hp b (p.mem_of_lookup t.text b hb.symm) variable_
      refine .pure ?_
      split
      · exact quoteTokens_refersTo value b.line
      · exact value

theorem settleAfter_settled (hp : p.Settled) (front ts : List Token) (hfront : RefersTo p.Positional front)
    (plain : RefersTo PlainName ts) : (p.settleAfter front ts).Obeys (fun _ => True) (RefersTo p.Positional) := by
  induction ts generalizing front with
  | nil => exact .pure hfront
  | cons t ts ih =>
    rw [refersTo_cons] at plain
    have keep (h : t.kind = .reference → p.Positional t.text) : RefersTo p.Positional (front ++ [t]) :=
      (refersTo_append ..).mpr ⟨hfront, (refersTo_cons ..).mpr ⟨h, refersTo_nil _⟩⟩
    rw [settleAfter]
    split
    · next reference =>
      refine .bind (.ofExcept fun _ index => index) ?_
      intro i index
      cases i with
      | some i => exact ih _ (keep fun _ => ⟨i, index⟩) plain.2
      | none =>
        refine .bind (resolve_settled hp t (plain.1 reference)) ?_
        intro value hvalue
        exact ih _ ((refersTo_append ..).mpr ⟨hfront, hvalue⟩) plain.2
    · next other =>
      split
      · exact ih _ hfront plain.2
      · exact ih _ (keep (absurd · other)) plain.2

theorem settle_settled (hp : p.Settled) (ts value : List Token) (plain : RefersTo PlainName ts)
    (h : (p.settle ts).result = .ok value) : RefersTo p.Positional value := by
  obtain ⟨whole, after, cut⟩ := (Traced.bind_eq_ok_iff _ _ _).mp h
  cases cut
  have settled := (settleAfter_settled hp [] ts (refersTo_nil _) plain).result whole after
  exact settled.subset (dropTrailingBlanks_subset whole)

theorem Settled.touch (hp : p.Settled) (uses : List Use) : (p.touch uses).Settled := by
  intro b hb
  obtain ⟨c, hc, rfl⟩ := List.mem_map.mp hb
  exact hp c hc

theorem Settled.assign (hp : p.Settled) (name : Text) (line : Int) (value : List Token)
    (h : isHandlerName name = false → RefersTo p.Positional value) : (p.assign name line value).Settled := by
  intro b hb other
  rw [positional_congr _ p (p.assign_parameters name line value)]
  rcases p.value_of_mem_assign name line value b hb with ⟨same, assigned⟩ | hb
  · rw [assigned]
    refine h ?_
    cases handler : isHandlerName name with
    | false => rfl
    | true =>
      rw [Binding.isHandler, same, isHandlerName_lower name handler] at other
      cases other
  · exact hp b hb other

theorem settled?_settled (p q : Protocol) (name : Text) (line : Int) (value : List Token) (hp : p.Settled)
    (plain : RefersTo PlainName value) (h : p.settled? name line value = some q) :
    q.Settled ∧ q.parameters = p.parameters := by
  obtain ⟨ts, settled, rfl⟩ := (p.settled?_eq_some_iff q name line value).mp h
  exact ⟨(hp.touch _).assign name line ts fun _ => settle_settled hp value ts plain settled, assign_parameters _ _ _ _⟩

end Protocol

namespace BodyItem

def Marked : BodyItem → Prop
  | handler name _ _ => isHandlerName name = true
  | _ => True

end BodyItem

namespace Statement

def Marked : Statement → Prop
  | assignment _ _ _ => True
  | handler name _ _ => isHandlerName name = true
  | definition _ _ _ items => ∀ item ∈ items, item.Marked

end Statement

namespace Scanner

theorem BodyAt.marked {s s' : Scanner} {items : List BodyItem} (h : BodyAt s items s') :
    ∀ item ∈ items, item.Marked := by
  induction h with
  | close => simp
  | assignment s s₁ s₂ s' name line value items head plain tokens rest ih =>
    exact List.forall_mem_cons.mpr ⟨trivial, ih⟩
  | handler s s₁ s₂ s' name line cs items head handler commands rest ih =>
    exact List.forall_mem_cons.mpr ⟨handler, ih⟩
  | command s s₁ s' c items first rest ih => exact List.forall_mem_cons.mpr ⟨trivial, ih⟩

theorem StatementsAt.marked {s : Scanner} {statements : List Statement} (h : StatementsAt s statements) :
    ∀ statement ∈ statements, statement.Marked := by
  induction h with
  | done => simp
  | assignment s s₁ s₂ name line value statements head plain tokens rest ih =>
    exact List.forall_mem_cons.mpr ⟨trivial, ih⟩
  | handler s s₁ s₂ name line cs statements head handler commands rest ih =>
    exact List.forall_mem_cons.mpr ⟨handler, ih⟩
  | definition s s₁ s₂ s₃ name line after parameters items statements head plain opens opening body rest ih =>
    exact List.forall_mem_cons.mpr ⟨body.marked, ih⟩

end Scanner

namespace Protocol

theorem build?_settled (protocols : List Protocol) (items : List BodyItem) (p q : Protocol) (hp : p.Settled)
    (marked : ∀ item ∈ items, item.Marked) (plain : RefersTo PlainName (items.flatMap BodyItem.values))
    (hq : p.build? protocols items = some q) : q.Settled := by
  refine build?_keeps Settled protocols items ?_ p q hp hq
  intro item hitem p q hp hq
  have values : RefersTo PlainName item.values := plain.subset fun t ht => List.mem_flatMap.mpr ⟨item, hitem, ht⟩
  cases item with
  | assignment name line value => exact (p.settled?_settled q name line value hp values hq).1
  | handler name line cs =>
    cases hq
    have handler : isHandlerName name = true := marked _ hitem
    exact hp.assign name line _ fun other => by simp [handler] at other
  | command c =>
    cases hq
    exact hp

end Protocol

namespace ProtocolFile

theorem template_settled (f : ProtocolFile) (hf : f.globals.Settled) (unnamed : f.globals.parameters = [])
    (name : Text) (line : Int) (parameters : List Text) : (f.template name line parameters).Settled := by
  intro b hb other t ht reference
  exact (hf b hb other t ht reference).of_unnamed unnamed _

theorem ofSource_settled (source : Text) (file : Option Text) (f : ProtocolFile) (statements : List Statement)
    (written : Scanner.StatementsAt (.ofSource source) statements)
    (plain : RefersTo PlainName (statements.flatMap Statement.values)) (hf : ofSource source file = .ok f) :
    f.globals.Settled ∧ ∀ p ∈ f.protocols, p.Settled := by
  obtain ⟨statements', g, written', built, rfl⟩ := (ofSource_eq_ok_iff source file f).mp hf
  cases written.unique written'
  let I (f : ProtocolFile) : Prop :=
    f.globals.parameters = [] ∧ f.globals.Settled ∧ ∀ p ∈ f.protocols, p.Settled
  have start : I (empty file) := ⟨rfl, by simp [empty, Protocol.Settled], by simp [empty]⟩
  refine (build?_keeps I statements ?_ (empty file) g start built).2
  intro statement hs f g hf hg
  obtain ⟨unnamed, globals, protocols⟩ := hf
  have values : RefersTo PlainName statement.values :=
    plain.subset fun t ht => List.mem_flatMap.mpr ⟨statement, hs, ht⟩
  have marked := written.marked statement hs
  cases statement with
  | assignment name line value =>
    obtain ⟨p, hp, rfl⟩ := Option.map_eq_some_iff.mp hg
    obtain ⟨settled, same⟩ := f.globals.settled?_settled p name line value globals values hp
    exact ⟨same.trans unnamed, settled, protocols⟩
  | handler name line cs =>
    cases hg
    have handler : isHandlerName name = true := marked
    refine ⟨(Protocol.assign_parameters _ _ _ _).trans unnamed, globals.assign name line _ ?_, protocols⟩
    intro other
    simp [handler] at other
  | definition name line parameters items =>
    obtain ⟨-, p, hp, rfl⟩ := (f.extend?_definition g name line parameters items).mp hg
    have template := f.template_settled globals unnamed name line parameters
    refine ⟨unnamed, globals, List.forall_mem_append.mpr ⟨protocols, ?_⟩⟩
    rw [List.forall_mem_singleton]
    exact Protocol.build?_settled f.protocols items _ p template marked values hp

end ProtocolFile
end DeviceProtocol
