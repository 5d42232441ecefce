import DeviceProtocol.Proofs.Consulted
import DeviceProtocol.Proofs.StorableStrings
set_option autoImplicit false

/-!
Protocols that give the same answers compile alike. Compilation asks a protocol for its commands, its parameters and the
bindings of certain names; which other bindings there are, which of them have been used before, and which file the
protocol comes from shows in the file of a fault at most.
-/
namespace DeviceProtocol

/-- The faults are the same, but for the file if each of them has the one that is given for it. -/
structure Fault.Moved (file file' : Option Text) (f g : Fault) : Prop where
  cause : f.cause = g.cause
  line : f.line = g.line
  notes : f.notes = g.notes
  file : f.file = g.file ∨ f.file = file ∧ g.file = file'

namespace Fault

variable {file file' : Option Text} {f g : Fault}

theorem moved_refl (f : Fault) : f.Moved file file' f := ⟨rfl, rfl, rfl, .inl rfl⟩

theorem Moved.eq (h : f.Moved file file g) : f = g := by
  have sameFile : f.file = g.file := by
    rcases h.file with same | ⟨first, second⟩
    · exact same
    · rw [first, second]
  cases f
  cases g
  rw [Fault.mk.injEq]
  exact ⟨h.cause, h.line, sameFile, h.notes⟩

theorem Moved.locate (h : f.Moved file file' g) (line : Option Int) :
    (f.locate line file).Moved file file' (g.locate line file') where
  cause := h.cause
  line := by
    simp only [Fault.locate]
    rw [h.line]
  notes := h.notes
  file := by
    simp only [Fault.locate]
    rcases h.file with same | ⟨first, second⟩
    · rw [same]
      cases g.file with
      | none => exact .inr ⟨rfl, rfl⟩
      | some x => exact .inl rfl
    · rw [first, second, Option.or_self, Option.or_self]
      exact .inr ⟨rfl, rfl⟩

theorem Moved.addNote (h : f.Moved file file' g) (line : Option Int) (note : Note) :
    (f.addNote line note).Moved file file' (g.addNote line note) where
  cause := h.cause
  line := h.line
  notes := by
    simp only [Fault.addNote]
    rw [h.notes]
  file := h.file

end Fault

/-- Both results are the same value, or failures that are the same but for the file. -/
inductive Moved {α : Type} (file file' : Option Text) : Except Failure α → Except Failure α → Prop
  | ok (a : α) : Moved file file' (.ok a) (.ok a)
  | fault {f g : Fault} (h : f.Moved file file' g) : Moved file file' (.error (.fault f)) (.error (.fault g))
  | crash (c : Crash) : Moved file file' (.error (.crash c)) (.error (.crash c))

section

variable {α β : Type} {file file' : Option Text}

theorem moved_refl (r : Except Failure α) : Moved file file' r r := by
  cases r with
  | ok a => exact .ok a
  | error e =>
    cases e with
    | fault f => exact .fault f.moved_refl
    | crash c => exact .crash c

theorem Moved.ok_iff {r s : Except Failure α} (h : Moved file file' r s) (a : α) : r = .ok a ↔ s = .ok a := by
  cases h with
  | ok b => rfl
  | fault => simp
  | crash => simp

theorem Moved.eq {r s : Except Failure α} (h : Moved file file r s) : r = s := by
  cases h with
  | ok a => rfl
  | fault h => rw [h.eq]
  | crash => rfl

theorem Moved.bind {r s : Except Failure α} {f g : α → Except Failure β} (h : Moved file file' r s)
    (step : ∀ a, r = .ok a → Moved file file' (f a) (g a)) : Moved file file' (r >>= f) (s >>= g) := by
  cases h with
  | ok a => exact step a rfl
  | fault h => exact .fault h
  | crash c => exact .crash c

theorem Moved.mapError {r s : Except Failure α} {g g' : Fault → Fault} (h : Moved file file' r s)
    (step : ∀ e e', e.Moved file file' e' → (g e).Moved file file' (g' e')) :
    Moved file file' (r.mapError (·.mapFault g)) (s.mapError (·.mapFault g')) := by
  cases h with
  | ok a => exact .ok a
  | fault h => exact .fault (step _ _ h)
  | crash c => exact .crash c

theorem moved_of_causes (r : Except Cause α) (g g' : Cause → Fault) (h : ∀ c, (g c).Moved file file' (g' c)) :
    Moved file file' (r.mapError fun c => .fault (g c)) (r.mapError fun c => .fault (g' c)) := by
  cases r with
  | ok a => exact .ok a
  | error c => exact .fault (h c)

namespace Traced

structure Alike (file file' : Option Text) (x y : Traced α) : Prop where
  result : Moved file file' x.result y.result
  uses : x.uses = y.uses

theorem alike_refl (x : Traced α) : x.Alike file file' x := ⟨moved_refl _, rfl⟩

theorem Alike.eq {x y : Traced α} (h : x.Alike file file y) : x = y := by
  obtain ⟨result, uses⟩ := h
  cases x
  cases y
  rw [Traced.mk.injEq]
  exact ⟨result.eq, uses⟩

theorem alike_fault (cause : Cause) (line : Int) :
    (fault cause line file : Traced α).Alike file file' (fault cause line file') :=
  ⟨.fault ⟨rfl, rfl, rfl, .inr ⟨rfl, rfl⟩⟩, rfl⟩

theorem alike_ofExcept {r s : Except Failure α} (h : Moved file file' r s) :
    (ofExcept r).Alike file file' (ofExcept s) := ⟨h, rfl⟩

theorem Alike.bind {x y : Traced α} {f g : α → Traced β} (h : x.Alike file file' y)
    (step : ∀ a, x.result = .ok a → (f a).Alike file file' (g a)) : (x >>= f).Alike file file' (y >>= g) := by
  have result : Moved file file' (x >>= f).result (y >>= g).result := by
    rw [result_bind, result_bind]
    exact h.result.bind fun a ha => (step a ha).result
  refine ⟨result, ?_⟩
  cases hx : x.result with
  | ok a =>
    rw [uses_bind_ok x f a hx, uses_bind_ok y g a ((h.result.ok_iff a).mp hx), h.uses, (step a hx).uses]
  | error e =>
    cases hy : y.result with
    | ok a => cases hx.symm.trans ((h.result.ok_iff a).mpr hy)
    | error e' => rw [uses_bind_error x f e hx, uses_bind_error y g e' hy, h.uses]

theorem Alike.mapFault {x y : Traced α} {g g' : Fault → Fault} (h : x.Alike file file' y)
    (step : ∀ e e', e.Moved file file' e' → (g e).Moved file file' (g' e')) :
    (x.mapFault g).Alike file file' (y.mapFault g') := ⟨h.result.mapError step, h.uses⟩

theorem alike_located (line : Int) (r : Except Failure α) :
    (located line file r).Alike file file' (located line file' r) :=
  (alike_refl _).mapFault fun _ _ moved => moved.locate _

theorem alike_flatMap {f g : α → Traced (List β)} (as : List α) (step : ∀ a ∈ as, (f a).Alike file file' (g a)) :
    (flatMap f as).Alike file file' (flatMap g as) := by
  induction as with
  | nil => exact alike_refl _
  | cons a as ih =>
    rw [List.forall_mem_cons] at step
    exact step.1.bind fun front _ => (ih step.2).bind fun back _ => alike_refl _

theorem alike_forAll {f g : α → Traced β} (as : List α) (step : ∀ a ∈ as, (f a).Alike file file' (g a)) :
    (forAll f as).Alike file file' (forAll g as) := by
  induction as with
  | nil => exact alike_refl _
  | cons a as ih =>
    rw [List.forall_mem_cons] at step
    exact step.1.bind fun b _ => (ih step.2).bind fun bs _ => alike_refl _

end Traced

end

open Traced (alike_refl alike_fault alike_located alike_ofExcept)

/-- The bindings differ at most in whether they have been used. -/
structure Binding.Same (b c : Binding) : Prop where
  name : b.name = c.name
  value : b.value = c.value
  line : b.line = c.line

theorem Binding.same_refl (b : Binding) : b.Same b := ⟨rfl, rfl, rfl⟩

namespace Protocol

/-- The protocols give the same answers about these names, and the first one refers to no others. -/
structure Alike (N : Text → Prop) (p q : Protocol) : Prop where
  name : p.name = q.name
  line : p.line = q.line
  self : p.self = q.self
  arguments : p.arguments = q.arguments
  parameters : p.parameters = q.parameters
  commands : p.commands.Same q.commands
  lookup : ∀ name, N name → (p.lookup name = none ∧ q.lookup name = none) ∨
    ∃ b c, p.lookup name = some b ∧ q.lookup name = some c ∧ b.Same c
  refers : p.Refers N

variable {N : Text → Prop} {p q : Protocol}

theorem consult_bind_alike {β : Type} (h : p.Alike N q) (name : Text) (hn : N name) {f g : Option Binding → Traced β}
    (unbound : (f none).Alike p.file q.file (g none))
    (bound : ∀ b c, p.lookup name = some b → b.Same c → (f (some b)).Alike p.file q.file (g (some c))) :
    (p.consult name >>= f).Alike p.file q.file (q.consult name >>= g) := by
  rcases h.lookup name hn with ⟨hp, hq⟩ | ⟨b, c, hp, hq, same⟩
  · rw [consult, consult, hp, hq]
    refine Traced.Alike.bind (alike_refl (Pure.pure none)) fun b hb => ?_
    cases hb
    exact unbound
  · have run (r : Protocol) (d : Binding) (hr : r.lookup name = some d) (e : Option Binding → Traced β) :
        (r.consult name >>= e).result = (e (some d)).result ∧
          (r.consult name >>= e).uses = .binding d.name :: (e (some d)).uses := by
      rw [consult, hr]
      exact ⟨Traced.bind_of_ok _ _ (some d) rfl, Traced.uses_bind_ok _ _ (some d) rfl⟩
    have next := bound b c hp same
    obtain ⟨result, uses⟩ := run p b hp f
    obtain ⟨result', uses'⟩ := run q c hq g
    refine ⟨?_, ?_⟩
    · rw [result, result']
      exact next.result
    · rw [uses, uses', same.name, next.uses]

theorem Alike.parameterIndex (h : p.Alike N q) (name : Text) : p.parameterIndex name = q.parameterIndex name := by
  simp only [Protocol.parameterIndex, h.parameters]

theorem resolve_alike (h : p.Alike N q) (t : Token) (ht : N t.text) :
    (p.resolve t).Alike p.file q.file (q.resolve t) := by
  have slot : p.slot = q.slot := by
    funext i
    cases i with
    | zero => exact h.self
    | succ i => simp only [Protocol.slot, h.arguments]
  rw [resolve, resolve, h.parameterIndex]
  refine (alike_refl _).bind fun i _ => ?_
  cases i with
  | some i =>
    dsimp only
    rw [slot]
    split
    · exact alike_refl _
    · split
      · exact alike_fault _ _
      · exact alike_refl _
  | none =>
    refine consult_bind_alike h t.text ht (alike_fault _ _) fun b c _ same => ?_
    dsimp only
    rw [same.value, same.line]
    exact alike_refl _

theorem settleAfter_alike (h : p.Alike N q) (front ts : List Token) (ht : RefersTo N ts) :
    (p.settleAfter front ts).Alike p.file q.file (q.settleAfter front ts) := by
  induction ts generalizing front with
  | nil => exact alike_refl _
  | cons t ts ih =>
    rw [refersTo_cons] at ht
    rw [settleAfter, settleAfter, h.parameterIndex]
    split
    · next reference =>
      refine (alike_refl _).bind fun i _ => ?_
      cases i with
      | some i => exact ih _ ht.2
      | none => exact (resolve_alike h t (ht.1 reference)).bind fun value _ => ih _ ht.2
    · split
      · exact ih _ ht.2
      · exact ih _ ht.2

theorem settle_alike (h : p.Alike N q) (ts : List Token) (ht : RefersTo N ts) :
    (p.settle ts).Alike p.file q.file (q.settle ts) :=
  (settleAfter_alike h [] ts ht).bind fun _ _ => alike_refl _

theorem numberText_alike (h : p.Alike N q) (ts : List Token) (ht : RefersTo N ts) :
    (p.numberText ts).Alike p.file q.file (q.numberText ts) := by
  induction ts with
  | nil => exact alike_refl _
  | cons t ts ih =>
    rw [refersTo_cons] at ht
    rw [numberText, numberText]
    split
    · next reference =>
      exact (resolve_alike h t (ht.1 reference)).bind fun _ _ => (ih ht.2).bind fun _ _ => alike_refl _
    · split
      · exact (ih ht.2).bind fun _ _ => alike_refl _
      · exact alike_refl _

theorem compileNumber_alike (h : p.Alike N q) (a : Arguments) (limit : Int) (ha : RefersTo N a.rest) :
    (p.compileNumber a limit).Alike p.file q.file (q.compileNumber a limit) := by
  refine (numberText_alike h a.rest ha).bind ?_
  rintro ⟨text, count⟩ _
  exact (alike_located _ _).bind fun _ _ => alike_refl _

theorem numberVariable_alike (h : p.Alike N q) (name : Text) (limit : Int) (hn : N name) :
    (p.numberVariable name limit).Alike p.file q.file (q.numberVariable name limit) := by
  refine consult_bind_alike h name hn (alike_refl _) fun b c hb same => ?_
  have value := h.refers.bindings b (p.mem_of_lookup name b hb)
  dsimp only
  rw [← same.value, ← same.line]
  refine ((compileNumber_alike h (.ofTokens b.value) limit value).mapFault ?_).bind ?_
  · exact fun _ _ moved => (moved.locate _).addNote _ _
  · rintro ⟨n, a⟩ _
    dsimp only
    split
    · exact alike_refl _
    · exact alike_fault _ _

theorem choiceVariable_alike (h : p.Alike N q) (name : Text) (choices : List Text) (hn : N name) :
    (p.choiceVariable name choices).Alike p.file q.file (q.choiceVariable name choices) := by
  refine consult_bind_alike h name hn (alike_refl _) fun b c _ same => ?_
  dsimp only
  rw [← same.value, ← same.line]
  split
  · exact alike_refl _
  · exact alike_fault _ _

theorem commandNumber_alike (h : p.Alike N q) (a : Arguments) (ha : RefersTo N a.rest) :
    (p.commandNumber a).Alike p.file q.file (q.commandNumber a) :=
  (compileNumber_alike h a maxNumber ha).bind fun _ _ => alike_refl _

theorem eventMask_alike (h : p.Alike N q) (a : Arguments) (ha : RefersTo N a.rest) :
    (p.eventMask a).Alike p.file q.file (q.eventMask a) := by
  have opened := ha.subset (a.rest_expect ['('])
  rw [eventMask, eventMask]
  split
  · exact alike_refl _
  · next b heq =>
    rw [heq] at opened
    refine (commandNumber_alike h _ (opened.subset b.rest_skipBlanks)).bind ?_
    rintro ⟨mask, c⟩ _
    dsimp only
    split
    · exact alike_refl _
    · exact alike_fault _ _

theorem eventOperands_alike (h : p.Alike N q) (a : Arguments) (ha : RefersTo N a.rest) :
    (p.eventOperands a).Alike p.file q.file (q.eventOperands a) := by
  rw [eventOperands, eventOperands]
  refine (eventMask_alike h a ha).bind ?_
  rintro ⟨mask, b⟩ hb
  have rest := (eventMask_obeys h.refers a ha).result _ hb
  dsimp only
  split
  · exact alike_refl _
  · exact (commandNumber_alike h _ (RefersTo.subset rest b.rest_skipBlanks)).bind fun _ _ => alike_refl _

end Protocol

namespace Compiler

variable (k : Compiler)

theorem compileFormat_moved (line : Int) (file file' : Option Text) (mode : Mode) (source : Text) :
    Moved file file' (k.compileFormat line file mode source) (k.compileFormat line file' mode source) := by
  have placed (c : Cause) : Fault.Moved file file' { cause := c, line := some line, file := file }
      { cause := c, line := some line, file := file' } := ⟨rfl, rfl, rfl, .inr ⟨rfl, rfl⟩⟩
  refine (moved_of_causes _ _ _ placed).bind ?_
  rintro ⟨target, text⟩ _
  refine (moved_refl _).bind fun conversion _ => ?_
  dsimp only
  split
  · next c _ => exact .fault (placed c)
  · exact moved_refl _

theorem compileFormats_moved (line : Int) (file file' : Option Text) (mode : Mode) (position : Nat)
    (cells : List Cell) :
    Moved file file' (k.compileFormats line file mode position cells)
      (k.compileFormats line file' mode position cells) := by
  fun_induction k.compileFormats line file mode position cells with
  | case1 =>
    rw [compileFormats]
    exact .ok _
  | case2 position rest ih =>
    rw [compileFormats]
    exact ih.bind fun back _ => .ok _
  | case3 position rest single source ih =>
    rw [compileFormats]
    · refine ((k.compileFormat_moved line file file' mode source).mapError ?_).bind ?_
      · exact fun _ _ moved => (moved.locate _).addNote _ _
      · rintro ⟨field, length⟩ _
        exact (ih length).bind fun back _ => .ok _
    · exact single
  | case4 position cell rest single other ih =>
    rw [compileFormats]
    · exact ih.bind fun back _ => .ok _
    · exact single
    · exact other

variable {p q : Protocol} {N : Text → Prop}

theorem encode_alike (h : p.Alike N q) (mode : Mode) (depth : Nat) (i : StringItem) (hi : i.RefersTo N) :
    (k.encode p mode depth i).Alike p.file q.file (k.encode q mode depth i) := by
  induction depth using Nat.strongRecOn generalizing i with
  | ind depth ih =>
    cases i with
    | signed sign number =>
      rw [encode, encode]
      exact alike_located _ _
    | token t =>
      rw [encode, encode]
      split
      · exact alike_located _ _
      · next reference =>
        refine (Protocol.resolve_alike h t (hi reference)).bind fun value resolved => ?_
        have refers := (Protocol.resolve_obeys h.refers t (hi reference)).result value resolved
        cases depth with
        | zero => exact alike_fault _ _
        | succ depth =>
          refine Traced.alike_flatMap _ fun i hi => ih depth (Nat.lt_succ_self depth) i ?_
          exact stringItems_refersTo value refers i hi
      · exact alike_refl _
      · exact alike_located _ _
      · split
        · exact alike_refl _
        · exact alike_fault _ _
      · exact alike_fault _ _

theorem compileLine_alike (h : p.Alike N q) (mode : Mode) (position : Nat) (run : List StringItem)
    (hi : ∀ i ∈ run, i.RefersTo N) :
    (k.compileLine p mode position run).Alike p.file q.file (k.compileLine q mode position run) := by
  refine (Traced.alike_flatMap run fun i mem => k.encode_alike h mode _ i (hi i mem)).bind fun cells _ => ?_
  split
  · exact alike_refl _
  · exact alike_refl _
  · exact alike_ofExcept (k.compileFormats_moved _ _ _ _ position cells)

theorem compileLines_alike (h : p.Alike N q) (mode : Mode) (position : Nat) (runs : List (List StringItem))
    (hi : ∀ i ∈ runs.flatten, i.RefersTo N) :
    (k.compileLines p mode position runs).Alike p.file q.file (k.compileLines q mode position runs) := by
  induction runs generalizing position with
  | nil => exact alike_refl _
  | cons run runs ih =>
    rw [List.flatten_cons, List.forall_mem_append] at hi
    refine (k.compileLine_alike h mode position run hi.1).bind fun front _ => ?_
    exact (ih _ hi.2).bind fun back _ => alike_refl _

theorem compileString_alike (h : p.Alike N q) (mode : Mode) (ts : List Token) (ht : RefersTo N ts) :
    (k.compileString p mode ts).Alike p.file q.file (k.compileString q mode ts) := by
  have items := stringItems_refersTo ts ht
  rw [← lineRuns_flatten (stringItems ts)] at items
  exact (k.compileLines_alike h mode 0 _ items).bind fun cells _ => alike_refl _

theorem compileNamed_alike (h : p.Alike N q) (name : Text) (line : Int) (a : Arguments) (ha : RefersTo N a.rest) :
    (k.compileNamed p name line a).Alike p.file q.file (k.compileNamed q name line a) := by
  rw [compileNamed, compileNamed]
  split
  · exact (k.compileString_alike h _ a.rest ha).bind fun _ _ => alike_refl _
  · split
    · exact (Protocol.commandNumber_alike h a ha).bind fun _ _ => alike_refl _
    · split
      · exact (Protocol.eventOperands_alike h a ha).bind fun _ _ => alike_refl _
      · split
        · exact alike_refl _
        · exact alike_fault _ _

theorem compileCommand_alike (h : p.Alike N q) (segment : Token × List Token) (hs : RefersTo N segment.2) :
    (k.compileCommand p segment).Alike p.file q.file (k.compileCommand q segment) := by
  obtain ⟨word, arguments⟩ := segment
  have rest := RefersTo.subset hs (Arguments.ofTokens arguments).rest_skipBlanks
  refine ((k.compileNamed_alike h word.text word.line _ rest).mapFault ?_).bind ?_
  · exact fun _ _ moved => (moved.locate _).addNote _ _
  · rintro ⟨command, a⟩ _
    dsimp only
    split
    · exact alike_refl _
    · exact alike_fault _ _

theorem compileCommands_alike (h : p.Alike N q) (ts : List Token) (ht : RefersTo N ts) :
    (k.compileCommands p ts).Alike p.file q.file (k.compileCommands q ts) := by
  rw [compileCommands, compileCommands]
  split
  · rw [h.line]
    exact alike_fault _ _
  · refine Traced.Alike.bind (Traced.alike_forAll _ fun segment hs => ?_) fun commands _ => alike_refl _
    exact k.compileCommand_alike h segment (ht.subset (commandSegments_subset ts segment hs))

theorem stringVariable_alike (h : p.Alike N q) (name : Text) (hn : N name) :
    (k.stringVariable p name).Alike p.file q.file (k.stringVariable q name) := by
  refine Protocol.consult_bind_alike h name hn (alike_refl _) fun b c hb same => ?_
  have value := h.refers.bindings b (p.mem_of_lookup name b hb)
  dsimp only
  rw [← same.value, ← same.line]
  refine ((compileString_alike { k with fields := none } h .plain b.value value).mapFault ?_).bind ?_
  · exact fun _ _ moved => (moved.locate _).addNote _ _
  · exact fun _ _ => alike_refl _

theorem numberSetting_alike (h : p.Alike N q) (name : String) (default : Int) (hn : N name.toList) :
    (numberSetting p name default).Alike p.file q.file (numberSetting q name default) :=
  (Protocol.numberVariable_alike h name.toList maxNumber hn).bind fun _ _ => alike_refl _

theorem stringSetting_alike (h : p.Alike N q) (name : String) (default : List Instruction) (hn : N name.toList) :
    (k.stringSetting p name default).Alike p.file q.file (k.stringSetting q name default) :=
  (k.stringVariable_alike h name.toList hn).bind fun _ _ => alike_refl _

theorem readSettings_alike (h : p.Alike N q) (settings : ∀ name ∈ settingNames, N name) :
    (k.readSettings p).Alike p.file q.file (k.readSettings q) := by
  have number (name : String) (default : Int) (mem : name.toList ∈ settingNames) :=
    numberSetting_alike h name default (settings _ mem)
  have string (name : String) (default : List Instruction) (mem : name.toList ∈ settingNames) :=
    k.stringSetting_alike h name default (settings _ mem)
  refine (number "locktimeout" 5000 (by decide)).bind fun _ _ => ?_
  refine (number "writetimeout" 100 (by decide)).bind fun _ _ => ?_
  refine (number "replytimeout" 1000 (by decide)).bind fun _ _ => ?_
  refine (number "readtimeout" 100 (by decide)).bind fun _ _ => ?_
  refine (Protocol.numberVariable_alike h "pollperiod".toList maxNumber (settings _ (by decide))).bind fun _ _ => ?_
  refine (number "maxinput" 0 (by decide)).bind fun _ _ => ?_
  refine (string "terminator" [] (by decide)).bind fun terminator _ => ?_
  refine (string "interminator" terminator (by decide)).bind fun _ _ => ?_
  refine (string "outterminator" terminator (by decide)).bind fun _ _ => ?_
  refine (string "separator" [] (by decide)).bind fun _ _ => ?_
  have choice :=
    Protocol.choiceVariable_alike h "extrainput".toList Settings.extraInputChoices (settings _ (by decide))
  exact choice.bind fun _ _ => alike_refl _

theorem handlerProgram_alike (h : p.Alike N q) (name : Text) (hn : N name) :
    (k.handlerProgram p name).Alike p.file q.file (k.handlerProgram q name) := by
  refine Protocol.consult_bind_alike h name hn (alike_refl _) fun b c hb same => ?_
  have value := h.refers.bindings b (p.mem_of_lookup name b hb)
  dsimp only
  rw [← same.value, ← same.line, ← h.name, ← h.commands.line]
  split
  · exact alike_refl _
  · refine ((k.compileCommands_alike h b.value value).mapFault ?_).bind fun _ _ => alike_refl _
    exact fun _ _ moved => ((moved.locate _).addNote _ _).addNote _ _

theorem handlerPrograms_alike (h : p.Alike N q) (handlers : ∀ name ∈ knownHandlers, N name) :
    (k.handlerPrograms p).Alike p.file q.file (k.handlerPrograms q) :=
  Traced.alike_flatMap _ fun name mem =>
    (k.handlerProgram_alike h name (handlers name mem)).bind fun _ _ => alike_refl _

theorem ownProgram_alike (h : p.Alike N q) : (k.ownProgram p).Alike p.file q.file (k.ownProgram q) := by
  rw [ownProgram, ownProgram, ← h.commands.value, ← h.commands.line, ← h.name]
  refine (alike_refl _).bind fun _ _ => ?_
  split
  · exact alike_refl _
  · refine ((k.compileCommands_alike h p.commands.value h.refers.commands).mapFault ?_).bind fun _ _ => alike_refl _
    exact fun _ _ moved => (moved.locate _).addNote _ _

theorem compileInstance_alike (h : p.Alike N q) (handlers : ∀ name ∈ knownHandlers, N name) :
    (k.compileInstance p).Alike p.file q.file (k.compileInstance q) :=
  (k.handlerPrograms_alike h handlers).bind fun _ _ => (k.ownProgram_alike h).bind fun _ _ => alike_refl _

theorem compileProtocol_alike (h : p.Alike N q) (settings : ∀ name ∈ settingNames, N name)
    (handlers : ∀ name ∈ knownHandlers, N name) :
    (k.compileProtocol p).Alike p.file q.file (k.compileProtocol q) := by
  refine (k.readSettings_alike h settings).bind fun _ _ => ?_
  refine (k.handlerPrograms_alike h handlers).bind fun _ _ => ?_
  refine (k.ownProgram_alike h).bind fun _ _ => ?_
  rw [h.name]
  exact alike_refl _

end Compiler
end DeviceProtocol
