import Mathlib.Data.List.Basic
import DeviceProtocol.Compile.Source
import DeviceProtocol.Proofs.TextBehind
import DeviceProtocol.Proofs.WrittenReferences
set_option autoImplicit false

namespace DeviceProtocol

open Scanner

namespace BodyItem

/-- The commands that are written in an item. -/
def commands : BodyItem → List WrittenCommand
  | assignment _ _ _ => []
  | handler _ _ cs => cs
  | command c => [c]

end BodyItem

namespace Statement

def commands : Statement → List WrittenCommand
  | assignment _ _ _ => []
  | handler _ _ cs => cs
  | definition _ _ _ items => items.flatMap BodyItem.commands

def defined : Statement → List Text
  | definition name _ _ _ => [name]
  | _ => []

end Statement

/-- The command cannot mean a protocol of the name `q` in front of the earlier ones: arguments stand behind its name, or
there is an earlier protocol of its own name, or `q` does not start with it. -/
def WrittenCommand.Clear (q : Text) (earlier : List Text) (c : WrittenCommand) : Prop :=
  c.alone = true → Text.lower c.name ∈ earlier ∨ ¬ Text.lower c.name <+: q

instance (q : Text) (earlier : List Text) (c : WrittenCommand) : Decidable (c.Clear q earlier) :=
  inferInstanceAs (Decidable (c.alone = true → Text.lower c.name ∈ earlier ∨ ¬ Text.lower c.name <+: q))

/-- No command in the statements can mean a protocol of the name `q` in front of them. -/
def Clear (q : Text) : List Text → List Statement → Prop
  | _, [] => True
  | earlier, statement :: statements =>
    (∀ c ∈ statement.commands, c.Clear q earlier) ∧ Clear q (earlier ++ statement.defined) statements

instance decidableClear (q : Text) : (earlier : List Text) → (statements : List Statement) →
    Decidable (Clear q earlier statements)
  | _, [] => isTrue trivial
  | earlier, statement :: statements =>
    have := decidableClear q (earlier ++ statement.defined) statements
    inferInstanceAs (Decidable (_ ∧ _))

theorem ProtocolFile.findIn_cons (d : Protocol) (protocols : List Protocol) (name : Text)
    (h : (Text.lower name ∈ protocols.map Protocol.name ∧ d.name ≠ Text.lower name) ∨ ¬ Text.lower name <+: d.name) :
    findIn (d :: protocols) name = findIn protocols name := by
  have other : d.name ≠ Text.lower name := by
    rcases h with ⟨-, other⟩ | apart
    · exact other
    · intro same
      rw [same] at apart
      exact apart List.prefix_rfl
  rcases h with ⟨mem, -⟩ | apart
  · obtain ⟨t, ht, same⟩ := List.mem_map.mp mem
    have found : (protocols.find? fun p => p.name == Text.lower name).isSome :=
      List.find?_isSome.mpr ⟨t, ht, by simpa using same⟩
    obtain ⟨r, hr⟩ := Option.isSome_iff_exists.mp found
    simp [findIn, List.find?_cons, other, hr]
  · have apart' : (Text.lower name).isPrefixOf d.name = false := by
      rwa [← Bool.not_eq_true, List.isPrefixOf_iff_prefix]
    simp [findIn, other, apart']

theorem WrittenCommand.tokens_cons (d : Protocol) (protocols : List Protocol) (c : WrittenCommand)
    (fresh : ∀ p ∈ protocols, p.name ≠ d.name) (clear : c.Clear d.name (protocols.map Protocol.name)) :
    c.tokens (d :: protocols) = c.tokens protocols := by
  rw [tokens, tokens]
  cases alone : c.alone with
  | false => simp
  | true =>
    rw [if_pos rfl, if_pos rfl, ProtocolFile.findIn_cons]
    rcases clear alone with mem | apart
    · obtain ⟨t, ht, same⟩ := List.mem_map.mp mem
      exact .inl ⟨mem, fun h => fresh t ht (same.trans h.symm)⟩
    · exact .inr apart

namespace Protocol

theorem build?_congr (protocols protocols' : List Protocol) (items : List BodyItem) (p : Protocol)
    (same : ∀ c ∈ items.flatMap BodyItem.commands, c.tokens protocols = c.tokens protocols') :
    p.build? protocols items = p.build? protocols' items := by
  induction items generalizing p with
  | nil => rfl
  | cons item items ih =>
    rw [List.flatMap_cons, List.forall_mem_append] at same
    have step : extend? protocols p item = extend? protocols' p item := by
      cases item with
      | assignment name line value => rfl
      | handler name line cs =>
        have tokens : cs.flatMap (WrittenCommand.tokens protocols) = cs.flatMap (WrittenCommand.tokens protocols') :=
          List.flatMap_congr same.1
        simp [extend?, tokens]
      | command c => rw [extend?, extend?, same.1 c (List.mem_singleton_self c)]
    show extend? protocols p item >>= _ = extend? protocols' p item >>= _
    rw [step]
    exact bind_congr fun q => ih q same.2

theorem assign_name (p : Protocol) (name : Text) (line : Int) (value : List Token) :
    (p.assign name line value).name = p.name := by
  simp only [assign, declare]
  split <;> rfl

theorem build?_name (protocols : List Protocol) (items : List BodyItem) (p q : Protocol)
    (h : p.build? protocols items = some q) : q.name = p.name := by
  refine build?_keeps (fun r => r.name = p.name) protocols items ?_ p q rfl h
  intro item _ r r' hr hr'
  cases item with
  | assignment name line value =>
    obtain ⟨ts, -, rfl⟩ := (r.settled?_eq_some_iff r' name line value).mp hr'
    rw [assign_name]
    exact hr
  | handler name line cs =>
    cases hr'
    rw [assign_name]
    exact hr
  | command c =>
    cases hr'
    exact hr

end Protocol

namespace ProtocolFile

theorem build?_protocols (f g : ProtocolFile) (statements : List Statement) (h : f.build? statements = some g) :
    f.protocols <+: g.protocols := by
  refine build?_keeps (fun r => f.protocols <+: r.protocols) statements ?_ f g List.prefix_rfl h
  intro statement _ r r' hr hr'
  cases statement with
  | assignment name line value =>
    obtain ⟨p, -, rfl⟩ := Option.map_eq_some_iff.mp hr'
    exact hr
  | handler name line cs =>
    cases hr'
    exact hr
  | definition name line parameters items =>
    obtain ⟨-, p, -, rfl⟩ := (r.extend?_definition r' name line parameters items).mp hr'
    exact hr.trans (List.prefix_append _ _)

theorem extend?_cons (d : Protocol) (f g : ProtocolFile) (statement : Statement)
    (fresh : ∀ p ∈ g.protocols, p.name ≠ d.name)
    (clear : ∀ c ∈ statement.commands, c.Clear d.name (f.protocols.map Protocol.name))
    (h : f.extend? statement = some g) :
    ({ f with protocols := d :: f.protocols }).extend? statement = some { g with protocols := d :: g.protocols } ∧
      g.protocols.map Protocol.name = f.protocols.map Protocol.name ++ statement.defined := by
  cases statement with
  | assignment name line value =>
    obtain ⟨p, hp, rfl⟩ := Option.map_eq_some_iff.mp h
    exact ⟨by simp [extend?, hp], by simp [Statement.defined]⟩
  | handler name line cs =>
    cases h
    have same : cs.flatMap (WrittenCommand.tokens (d :: f.protocols)) =
        cs.flatMap (WrittenCommand.tokens f.protocols) :=
      List.flatMap_congr fun c hc => c.tokens_cons d f.protocols fresh (clear c hc)
    exact ⟨by simp [extend?, same], by simp [Statement.defined]⟩
  | definition name line parameters items =>
    obtain ⟨first, p, hp, rfl⟩ := (f.extend?_definition g name line parameters items).mp h
    have named : p.name = name := Protocol.build?_name f.protocols items _ p hp
    rw [List.forall_mem_append, List.forall_mem_singleton, named] at fresh
    constructor
    · refine (extend?_definition _ _ name line parameters items).mpr ⟨?_, p, ?_, rfl⟩
      · exact List.forall_mem_cons.mpr ⟨fresh.2.symm, first⟩
      · rw [← hp]
        exact Protocol.build?_congr _ _ items _ fun c hc => c.tokens_cons d f.protocols fresh.1 (clear c hc)
    · simp [Statement.defined, named]

theorem build?_cons (d : Protocol) (f g : ProtocolFile) (statements : List Statement)
    (fresh : ∀ p ∈ g.protocols, p.name ≠ d.name) (clear : Clear d.name (f.protocols.map Protocol.name) statements)
    (h : f.build? statements = some g) :
    ({ f with protocols := d :: f.protocols }).build? statements = some { g with protocols := d :: g.protocols } := by
  induction statements generalizing f with
  | nil =>
    cases h
    rfl
  | cons statement statements ih =>
    obtain ⟨f₁, first, rest⟩ := Option.bind_eq_some_iff.mp h
    have grows := f₁.build?_protocols g statements rest
    have fresh₁ : ∀ p ∈ f₁.protocols, p.name ≠ d.name := fun p hp => fresh p (grows.subset hp)
    obtain ⟨step, names⟩ := extend?_cons d f f₁ statement fresh₁ clear.1 first
    show extend? _ statement >>= _ = _
    rw [step]
    exact ih f₁ (by rw [names]; exact clear.2) rest

end ProtocolFile

namespace Scanner

theorem readHead_afterGap (eofAllowed : Bool) (s : Scanner) (outside : s.quote = none) :
    readHead eofAllowed s.afterGap = readHead eofAllowed s := by
  cases hs : s.rest with
  | nil =>
    have same : s.afterGap = s := by
      obtain ⟨rest, line, quote, escapedDollar⟩ := s
      cases hs
      rfl
    rw [same]
  | cons c cs =>
    cases gap : opensGap c with
    | true =>
      have first : s.readFirst = (some ' ', s.afterGap) := by
        simp [readFirst, outside, readChar, hs, gap]
      have token := readToken_of_special .structural eofAllowed s ' ' s.afterGap outside first (by decide) rfl (by decide)
      rw [readHead_of_token eofAllowed s s.afterGap _ token]
      rfl
    | false =>
      have same : s.afterGap = s := by
        obtain ⟨rest, line, quote, escapedDollar⟩ := s
        cases hs
        simp only [opensGap, Bool.or_eq_false_iff, beq_eq_false_iff_ne] at gap
        simp [afterGap, skipGap, gap]
      rw [same]

theorem readHead_blank (eofAllowed : Bool) (source : Text) :
    readHead eofAllowed { rest := ' ' :: source } = readHead eofAllowed (.ofSource source) := by
  have space : isSpace ' ' = true := by decide
  have skip : ({ rest := ' ' :: source } : Scanner).afterGap = (Scanner.ofSource source).afterGap := by
    simp [afterGap, skipGap, ofSource, space]
  rw [← readHead_afterGap eofAllowed _ rfl, skip, readHead_afterGap eofAllowed _ rfl]

theorem StatementsAt.of_readHead {s s' : Scanner} {statements : List Statement} (h : StatementsAt s statements)
    (same : readHead true s' = readHead true s) : StatementsAt s' statements := by
  cases h with
  | done _ s₁ head => exact .done s' s₁ (same.trans head)
  | assignment _ s₁ s₂ name line value statements head plain tokens rest =>
    exact .assignment s' s₁ s₂ name line value statements (same.trans head) plain tokens rest
  | handler _ s₁ s₂ name line cs statements head handler commands rest =>
    exact .handler s' s₁ s₂ name line cs statements (same.trans head) handler commands rest
  | definition _ s₁ s₂ s₃ name line after parameters items statements head plain opens opening body rest =>
    exact .definition s' s₁ s₂ s₃ name line after parameters items statements (same.trans head) plain opens opening body
      rest

theorem StatementsAt.prepend {front source q : Text} {s : Scanner} {items : List BodyItem} {statements : List Statement}
    (head : readHead true (.ofSource (front ++ ['\x7d', ' '])) = .ok (.named q 1 (some '\x7b')) s)
    (plain : isHandlerName q = false) (body : BodyAt s items { rest := [' '] })
    (h : StatementsAt (.ofSource source) statements) :
    StatementsAt (.ofSource (front ++ '\x7d' :: ' ' :: source)) (.definition q 1 [] items :: statements) := by
  have mark : IsMark '\x7d' := .inr rfl
  have start : Beside '\x7d' [' '] (' ' :: source) (.ofSource (front ++ ['\x7d', ' ']))
      (.ofSource (front ++ '\x7d' :: ' ' :: source)) := ⟨front, rfl, rfl⟩
  rcases readHead_named_beside mark true start head with ⟨u, head', beside⟩ | past
  · have beside' := beside.of_unread (by decide)
    have body' := body.beside mark beside' rfl
    exact .definition _ u u { rest := ' ' :: source } q 1 (some '\x7b') [] items statements head' plain (.inl rfl) rfl
      body' (h.of_readHead (readHead_blank true source))
  · have := body.length
    simp only [List.length_singleton, Option.toList_some] at this past
    omega

end Scanner

namespace ProtocolFile

/-- The text, a closing brace and a blank are the definition of the protocol `d` on one line, without parameters. The
brace is the one that ends the definition. -/
structure OneDefinition (file : Option Text) (front : Text) (d : Protocol) : Prop where
  plain : isHandlerName d.name = false
  read : ∃ s, readHead true (.ofSource (front ++ ['\x7d', ' '])) = .ok (.named d.name 1 (some '\x7b')) s ∧
    (empty file).readDefinition d.name 1 [] s = .ok d { rest := [' '] }

theorem ofSource_prepend (file : Option Text) (front source : Text) (d : Protocol) (f : ProtocolFile)
    (statements : List Statement) (defines : OneDefinition file front d) (hf : ofSource source file = .ok f)
    (written : StatementsAt (.ofSource source) statements) (fresh : ∀ p ∈ f.protocols, p.name ≠ d.name)
    (clear : Clear d.name [] statements) :
    ofSource (front ++ '\x7d' :: ' ' :: source) file = .ok { f with protocols := d :: f.protocols } := by
  obtain ⟨statements', g, written', built, rfl⟩ := (ofSource_eq_ok_iff source file f).mp hf
  cases written.unique written'
  obtain ⟨s, head, definition⟩ := defines.read
  obtain ⟨items, body, first, hd⟩ := ((empty file).readDefinition_eq_ok_iff d.name 1 [] s _ d).mp definition
  have extended : (empty file).extend? (.definition d.name 1 [] items) = some { empty file with protocols := [d] } :=
    ((empty file).extend?_definition _ d.name 1 [] items).mpr ⟨first, d, hd, rfl⟩
  have rest := build?_cons d (empty file) g statements fresh clear built
  refine (ofSource_eq_ok_iff _ file _).mpr
    ⟨_, { g with protocols := d :: g.protocols }, .prepend head defines.plain body written, ?_, rfl⟩
  rw [build?, List.foldlM_cons, extended]
  exact rest

end ProtocolFile

namespace Compiler

/-- A protocol that is defined in front of a source does not change what an instance of another protocol compiles to,
if the instance names its protocol exactly, the source does not define the new name itself, and no name that stands
alone in the source is a beginning of the new name, unless an earlier protocol of the source has just that name. -/
theorem compileSource_prepend (k : Compiler) (file : Option Text) (front source instantiation : Text) (d : Protocol)
    (f : ProtocolFile) (i : Instantiation) (statements : List Statement)
    (defines : ProtocolFile.OneDefinition file front d) (hf : ProtocolFile.ofSource source file = .ok f)
    (written : StatementsAt (.ofSource source) statements) (fresh : ∀ p ∈ f.protocols, p.name ≠ d.name)
    (clear : Clear d.name [] statements) (hi : Instantiation.ofText instantiation = .ok i)
    (named : ∃ p ∈ f.protocols, p.name = Text.lower i.name) :
    k.compileSource (front ++ '\x7d' :: ' ' :: source) instantiation file =
      k.compileSource source instantiation file := by
  have hf' := ProtocolFile.ofSource_prepend file front source d f statements defines hf written fresh clear
  have same : ({ f with protocols := d :: f.protocols }).instantiate instantiation = f.instantiate instantiation := by
    obtain ⟨p, hp, hn⟩ := named
    have found : ProtocolFile.findIn (d :: f.protocols) i.name = ProtocolFile.findIn f.protocols i.name :=
      ProtocolFile.findIn_cons d f.protocols i.name
        (.inl ⟨List.mem_map.mpr ⟨p, hp, hn⟩, fun h => fresh p hp (hn.trans h.symm)⟩)
    simp only [ProtocolFile.instantiate, hi, ProtocolFile.template?, ProtocolFile.find, found]
  rw [compileSource, compileSource, hf, hf']
  show ((_ : Except Fault Protocol).mapError Failure.fault >>= _) =
    ((f.instantiate instantiation).mapError .fault >>= _)
  rw [same]

theorem compileSource_prepend_disconnect :
    let front := "disconnectall \x7b out \"x\"; ".toList
    let source := "disconnect \x7b out 1; \x7d p \x7b disconnect; wait 2; \x7d".toList
    let program : Program := ⟨[⟨.output, 1, [.string [.literal [1]]]⟩, ⟨.wait, 1, [.number 2]⟩]⟩
    ({} : Compiler).compileSource source ['p'] none = .ok program ∧
      ({} : Compiler).compileSource (front ++ '\x7d' :: ' ' :: source) ['p'] none = .ok program := by
  intro front source program
  let word (text : String) : Token := ⟨.word, text.toList, 1, none⟩
  let protocol (name : String) (commands : List Token) : Protocol :=
    { name := name.toList, line := 1, self := some name.toList, commands := ⟨[], commands, 1, false⟩ }
  let stop : Token := ⟨.terminator, [';'], 1, none⟩
  let statements : List Statement := [
    .definition "disconnect".toList 1 [] [.command ⟨"out".toList, 1, false, [word "1"], 1⟩],
    .definition ['p'] 1 [] [.command ⟨"disconnect".toList, 1, true, [], 1⟩,
      .command ⟨"wait".toList, 1, false, [word "2"], 1⟩]]
  have alone : ({} : Compiler).compileSource source ['p'] none = .ok program := by decide +kernel
  have defines : ProtocolFile.OneDefinition none front
      (protocol "disconnectall" [word "out", ⟨.string, ['x'], 1, some .double⟩, stop]) :=
    ⟨by decide, { rest := " out \"x\"; \x7d ".toList }, by decide +kernel, by decide +kernel⟩
  have written : StatementsAt (.ofSource source) statements := by
    refine .definition _ { rest := " out 1; \x7d p \x7b disconnect; wait 2; \x7d".toList } _
      { rest := " p \x7b disconnect; wait 2; \x7d".toList } _ 1 (some '\x7b') [] _ _ ?_ ?_ (.inl rfl) rfl
      (.command _ _ _ _ _ (.intro _ { rest := "; \x7d p \x7b disconnect; wait 2; \x7d".toList }
        { rest := " \x7d p \x7b disconnect; wait 2; \x7d".toList } _ 1 (some '1') _ ?_ ?_ ?_ ?_ ?_) (.close _ _ ?_))
      (.definition _ { rest := " disconnect; wait 2; \x7d".toList } _ { rest := [] } _ 1 (some '\x7b') [] _ _ ?_ ?_
        (.inl rfl) rfl
        (.command _ _ _ _ _ (.intro _ { rest := " wait 2; \x7d".toList } { rest := " wait 2; \x7d".toList } _ 1
            (some ';') _ ?_ ?_ ?_ ?_ ?_)
          (.command _ _ _ _ _ (.intro _ { rest := "; \x7d".toList } { rest := " \x7d".toList } _ 1
            (some '2') _ ?_ ?_ ?_ ?_ ?_) (.close _ _ ?_)))
        (.done _ { rest := [] } ?_))
    all_goals decide +kernel
  have read : ProtocolFile.ofSource source none = .ok {
      valid := true
      protocols := [protocol "disconnect" [word "out", word "1", stop],
        protocol "p" [word "out", word "1", stop, word "wait", word "2", stop]] } := by
    decide +kernel
  refine ⟨alone, ?_⟩
  rw [← alone]
  exact compileSource_prepend {} none front source ['p'] _ _ ⟨['p'], []⟩ statements defines read written (by decide)
    (by decide +kernel) rfl (by decide)

/-- A command without arguments that is a beginning of the new name turns into the commands of the new protocol. -/
theorem compileSource_prepend_fails_beginning :
    let front := "disconnectall \x7b out \"x\"; ".toList
    let source := "p \x7b disconnect; \x7d".toList
    (ProtocolFile.ofSource (front ++ ['\x7d', ' ']) none).map (fun f => f.protocols.map Protocol.name) =
        .ok ["disconnectall".toList] ∧
      ¬ "disconnectall".toList <:+: source ∧
      ({} : Compiler).compileSource source ['p'] none = .ok ⟨[⟨.disconnect, 1, []⟩]⟩ ∧
      ({} : Compiler).compileSource (front ++ '\x7d' :: ' ' :: source) ['p'] none =
        .ok ⟨[⟨.output, 1, [.string [.literal [0x78]]]⟩]⟩ := by
  decide +kernel

end Compiler
end DeviceProtocol
