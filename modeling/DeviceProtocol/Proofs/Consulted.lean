import DeviceProtocol.CompiledProtocol
import DeviceProtocol.Proofs.PlainStrings
set_option autoImplicit false

namespace DeviceProtocol

namespace Traced

variable {α β : Type} {P : Use → Prop} {Q R : α → Prop} {S : β → Prop}

/-- All that the computation consults is of one kind, and what it gives is of another. -/
structure Obeys (x : Traced α) (P : Use → Prop) (Q : α → Prop) : Prop where
  uses : ∀ u ∈ x.uses, P u
  result : ∀ a, x.result = .ok a → Q a

theorem Obeys.mono {x : Traced α} {P' : Use → Prop} (h : x.Obeys P Q) (uses : ∀ u, P u → P' u)
    (result : ∀ a, Q a → R a) : x.Obeys P' R :=
  ⟨fun u hu => uses u (h.uses u hu), fun a ha => result a (h.result a ha)⟩

theorem Obeys.forget {x : Traced α} (h : x.Obeys P Q) : x.Obeys P fun _ => True :=
  h.mono (fun _ hu => hu) fun _ _ => trivial

theorem Obeys.pure {a : α} (h : Q a) : (Pure.pure a : Traced α).Obeys P Q := by
  refine ⟨by simp, ?_⟩
  intro b hb
  cases hb
  exact h

theorem Obeys.fail (e : Failure) : (fail e : Traced α).Obeys P Q :=
  ⟨by simp [Traced.fail], by simp⟩

theorem Obeys.fault (cause : Cause) (line : Int) (file : Option Text) :
    (fault cause line file : Traced α).Obeys P Q := .fail _

theorem Obeys.ofExcept {r : Except Failure α} (h : ∀ a, r = .ok a → Q a) : (ofExcept r).Obeys P Q :=
  ⟨by simp [Traced.ofExcept], h⟩

theorem Obeys.use {u : Use} (h : P u) : (use u).Obeys P fun _ => True :=
  ⟨by simpa [Traced.use] using h, fun _ _ => trivial⟩

theorem Obeys.bind {x : Traced α} {f : α → Traced β} (h : x.Obeys P Q)
    (step : ∀ a, Q a → (f a).Obeys P S) : (x >>= f).Obeys P S := by
  cases hx : x.result with
  | error e =>
    refine ⟨?_, ?_⟩
    · rw [uses_bind_error x f e hx]
      exact h.uses
    · intro b hb
      cases (bind_of_error x f e hx).symm.trans hb
  | ok a =>
    have next := step a (h.result a hx)
    refine ⟨?_, ?_⟩
    · rw [uses_bind_ok x f a hx, List.forall_mem_append]
      exact ⟨h.uses, next.uses⟩
    · intro b hb
      exact next.result b ((bind_of_ok x f a hx).symm.trans hb)

theorem Obeys.mapFault {x : Traced α} (g : Fault → Fault) (h : x.Obeys P Q) : (x.mapFault g).Obeys P Q := by
  refine ⟨h.uses, ?_⟩
  intro a ha
  exact h.result a ((mapFault_eq_ok_iff x g a).mp ha)

theorem Obeys.located (line : Int) (file : Option Text) (r : Except Failure α) :
    (located line file r).Obeys P fun _ => True :=
  .mapFault _ (.ofExcept fun _ _ => trivial)

theorem Obeys.flatMap {f : α → Traced (List β)} (as : List α)
    (step : ∀ a ∈ as, (f a).Obeys P fun bs => ∀ b ∈ bs, S b) :
    (flatMap f as).Obeys P fun bs => ∀ b ∈ bs, S b := by
  induction as with
  | nil => exact .pure (by simp)
  | cons a as ih =>
    rw [List.forall_mem_cons] at step
    refine .bind step.1 ?_
    intro front hfront
    refine .bind (ih step.2) ?_
    intro back hback
    exact .pure (List.forall_mem_append.mpr ⟨hfront, hback⟩)

theorem Obeys.flatMap_uses {f : α → Traced (List β)} (as : List α)
    (step : ∀ a ∈ as, (f a).Obeys P fun _ => True) : (Traced.flatMap f as).Obeys P fun _ => True := by
  have all : (Traced.flatMap f as).Obeys P fun bs => ∀ b ∈ bs, True :=
    .flatMap as fun a ha => (step a ha).mono (fun _ hu => hu) fun _ _ _ _ => trivial
  exact all.forget

theorem Obeys.forAll {f : α → Traced β} (as : List α) (step : ∀ a ∈ as, (f a).Obeys P S) :
    (forAll f as).Obeys P fun bs => ∀ b ∈ bs, S b := by
  induction as with
  | nil => exact .pure (by simp)
  | cons a as ih =>
    rw [List.forall_mem_cons] at step
    refine .bind step.1 ?_
    intro b hb
    refine .bind (ih step.2) ?_
    intro bs hbs
    exact .pure (List.forall_mem_cons.mpr ⟨hb, hbs⟩)

theorem mem_uses_bind_left (x : Traced α) (f : α → Traced β) (u : Use) (h : u ∈ x.uses) : u ∈ (x >>= f).uses := by
  cases hx : x.result with
  | error e =>
    rw [uses_bind_error x f e hx]
    exact h
  | ok a =>
    rw [uses_bind_ok x f a hx]
    exact List.mem_append_left _ h

theorem mem_uses_bind_right (x : Traced α) (f : α → Traced β) (a : α) (u : Use) (hx : x.result = .ok a)
    (h : u ∈ (f a).uses) : u ∈ (x >>= f).uses := by
  rw [uses_bind_ok x f a hx]
  exact List.mem_append_right _ h

theorem mem_uses_flatMap (f : α → Traced (List β)) (as : List α) (bs : List β) (a : α) (u : Use)
    (h : (Traced.flatMap f as).result = .ok bs) (mem : a ∈ as) (hu : u ∈ (f a).uses) :
    u ∈ (Traced.flatMap f as).uses := by
  induction as generalizing bs with
  | nil => cases mem
  | cons first as ih =>
    obtain ⟨front, hfront, rest⟩ := (bind_eq_ok_iff _ _ _).mp h
    obtain ⟨back, hback, -⟩ := (bind_eq_ok_iff _ _ _).mp rest
    rcases List.mem_cons.mp mem with rfl | mem
    · exact mem_uses_bind_left _ _ u hu
    · exact mem_uses_bind_right _ _ front u hfront (mem_uses_bind_left _ _ u (ih back hback mem))

end Traced

open Traced (Obeys)

/-- The references among the tokens have names of this kind. -/
def RefersTo (N : Text → Prop) (ts : List Token) : Prop := ∀ t ∈ ts, t.kind = .reference → N t.text

instance (N : Text → Prop) [DecidablePred N] (ts : List Token) : Decidable (RefersTo N ts) :=
  inferInstanceAs (Decidable (∀ t ∈ ts, t.kind = .reference → N t.text))

theorem RefersTo.subset {N : Text → Prop} {ts us : List Token} (h : RefersTo N ts) (sub : us ⊆ ts) : RefersTo N us :=
  fun t ht => h t (sub ht)

theorem refersTo_append (N : Text → Prop) (ts us : List Token) :
    RefersTo N (ts ++ us) ↔ RefersTo N ts ∧ RefersTo N us := List.forall_mem_append

theorem refersTo_cons (N : Text → Prop) (t : Token) (ts : List Token) :
    RefersTo N (t :: ts) ↔ (t.kind = .reference → N t.text) ∧ RefersTo N ts := List.forall_mem_cons

theorem refersTo_nil (N : Text → Prop) : RefersTo N [] := fun _ ht => absurd ht (List.not_mem_nil)

theorem quotedString_refersTo (N : Text → Prop) (line : Int) (pending : Option Text) :
    RefersTo N (quotedString line pending) := by
  cases pending with
  | none => exact refersTo_nil N
  | some text => exact (refersTo_cons ..).mpr ⟨by simp, refersTo_nil N⟩

theorem quotePieces_refersTo {N : Text → Prop} {ts : List Token} (h : RefersTo N ts) (line : Int)
    (pending : Option Text) : RefersTo N (quotePieces line pending ts) := by
  induction ts generalizing pending with
  | nil => exact quotedString_refersTo N line pending
  | cons t ts ih =>
    rw [refersTo_cons] at h
    rw [quotePieces]
    split
    · next reference =>
      rw [refersTo_append, refersTo_cons]
      exact ⟨quotedString_refersTo N line pending, fun _ => h.1 reference, ih h.2 none⟩
    · split
      · exact ih h.2 pending
      · exact ih h.2 _

theorem quoteTokens_refersTo {N : Text → Prop} {ts : List Token} (h : RefersTo N ts) (line : Int) :
    RefersTo N (quoteTokens ts line) := by
  have pieces := quotePieces_refersTo h line none
  rw [quoteTokens]
  split
  · exact (refersTo_cons ..).mpr ⟨by simp, refersTo_nil N⟩
  · exact pieces

namespace Protocol

/-- The references in all values of the protocol have names of this kind. -/
structure Refers (p : Protocol) (N : Text → Prop) : Prop where
  commands : RefersTo N p.commands.value
  bindings : ∀ b ∈ p.bindings, RefersTo N b.value

theorem Refers.mono {p : Protocol} {N M : Text → Prop} (hp : p.Refers N) (h : ∀ name, N name → M name) : p.Refers M :=
  ⟨fun t ht reference => h _ (hp.commands t ht reference),
    fun b hb t ht reference => h _ (hp.bindings b hb t ht reference)⟩

/-- The binding was found under a name of this kind. -/
def Found (p : Protocol) (N : Text → Prop) (u : Use) : Prop :=
  ∃ name b, N name ∧ p.lookup name = some b ∧ u = .binding b.name

theorem mem_of_lookup (p : Protocol) (name : Text) (b : Binding) (h : p.lookup name = some b) : b ∈ p.bindings := by
  rw [lookup, Option.or_eq_some_iff] at h
  rcases h with h | ⟨-, h⟩
  · exact List.mem_of_find?_eq_some h
  · exact List.mem_of_find?_eq_some h

variable {p : Protocol} {N : Text → Prop}

theorem consult_obeys (name : Text) (h : N name) : (p.consult name).Obeys (p.Found N) (· = p.lookup name) := by
  rw [consult]
  split
  · next b bound =>
    refine .bind (.use ⟨name, b, h, bound, rfl⟩) ?_
    intro _ _
    exact .pure bound.symm
  · next unbound => exact .pure unbound.symm

theorem resolve_obeys (hp : p.Refers N) (t : Token) (h : N t.text) :
    (p.resolve t).Obeys (p.Found N) (RefersTo N) := by
  rw [resolve]
  refine .bind (.ofExcept fun _ _ => trivial) ?_
  intro i _
  cases i with
  | some i =>
    dsimp only
    split
    · exact .fail _
    · split
      · exact .fault _ _ _
      · split
        · exact .pure ((refersTo_cons ..).mpr ⟨by simp, refersTo_nil N⟩)
        · exact .pure ((refersTo_cons ..).mpr ⟨by simp, refersTo_nil N⟩)
  | none =>
    refine .bind (consult_obeys t.text h) ?_
    intro b hb
    cases b with
    | none => exact .fault _ _ _
    | some b =>
      have value := hp.bindings b (p.mem_of_lookup t.text b hb.symm)
      refine .pure ?_
      split
      · exact quoteTokens_refersTo value b.line
      · exact value

theorem numberText_obeys (hp : p.Refers N) (ts : List Token) (h : RefersTo N ts) :
    (p.numberText ts).Obeys (p.Found N) fun _ => True := by
  induction ts with
  | nil => exact .pure trivial
  | cons t ts ih =>
    rw [refersTo_cons] at h
    rw [numberText]
    split
    · next reference =>
      refine .bind (resolve_obeys hp t (h.1 reference)) ?_
      intro value _
      refine .bind (ih h.2) ?_
      intro rest _
      exact .pure trivial
    · split
      · refine .bind (ih h.2) ?_
        intro rest _
        exact .pure trivial
      · exact .pure trivial

end Protocol

namespace Arguments

theorem rest_advance (a : Arguments) (n : Nat) : (a.advance n).rest ⊆ a.rest := List.drop_subset n a.rest

theorem rest_skipBlanks (a : Arguments) : a.skipBlanks.rest ⊆ a.rest := a.rest_advance _

theorem rest_expect (a : Arguments) (chars : Text) : (a.expect chars).2.rest ⊆ a.rest := by
  have skip := a.rest_skipBlanks
  rw [expect]
  split
  · split
    · exact List.Subset.trans (rest_advance _ 1) skip
    · exact skip
  · exact skip

end Arguments

namespace Protocol

variable {p : Protocol} {N : Text → Prop}

theorem compileNumber_obeys (hp : p.Refers N) (a : Arguments) (limit : Int) (h : RefersTo N a.rest) :
    (p.compileNumber a limit).Obeys (p.Found N) fun r => RefersTo N r.2.rest := by
  rw [compileNumber]
  refine .bind (numberText_obeys hp a.rest h) ?_
  rintro ⟨text, count⟩ _
  refine .bind (.located _ _ _) ?_
  intro n _
  exact .pure (h.subset (a.rest_advance count))

theorem commandNumber_obeys (hp : p.Refers N) (a : Arguments) (h : RefersTo N a.rest) :
    (p.commandNumber a).Obeys (p.Found N) fun r => RefersTo N r.2.rest := by
  refine .bind (compileNumber_obeys hp a maxNumber h) ?_
  rintro ⟨n, b⟩ hb
  refine .bind (.ofExcept fun _ _ => trivial) ?_
  intro word _
  exact .pure hb

theorem eventMask_obeys (hp : p.Refers N) (a : Arguments) (h : RefersTo N a.rest) :
    (p.eventMask a).Obeys (p.Found N) fun r => RefersTo N r.2.rest := by
  have opened := h.subset (a.rest_expect ['('])
  rw [eventMask]
  split
  · next heq =>
    rw [heq] at opened
    exact .pure opened
  · next b heq =>
    rw [heq] at opened
    refine .bind (commandNumber_obeys hp _ (opened.subset b.rest_skipBlanks)) ?_
    rintro ⟨mask, c⟩ hc
    have closed := RefersTo.subset hc (c.rest_expect [')'])
    dsimp only
    split
    · next heq =>
      rw [heq] at closed
      exact .pure closed
    · exact .fault _ _ _

theorem eventOperands_obeys (hp : p.Refers N) (a : Arguments) (h : RefersTo N a.rest) :
    (p.eventOperands a).Obeys (p.Found N) fun _ => True := by
  rw [eventOperands]
  refine .bind (eventMask_obeys hp a h) ?_
  rintro ⟨mask, b⟩ hb
  dsimp only
  split
  · exact .pure trivial
  · refine .bind (commandNumber_obeys hp _ (RefersTo.subset hb b.rest_skipBlanks)) ?_
    rintro ⟨timeout, c⟩ _
    exact .pure trivial

end Protocol

namespace StringItem

def RefersTo (N : Text → Prop) : StringItem → Prop
  | token t => t.kind = .reference → N t.text
  | signed _ _ => True

end StringItem

theorem stringItems_refersTo {N : Text → Prop} (ts : List Token) (h : RefersTo N ts) :
    ∀ i ∈ stringItems ts, i.RefersTo N := by
  fun_induction stringItems ts with
  | case1 => simp
  | case2 t => simpa [StringItem.RefersTo, RefersTo] using h
  | case3 t u ts _ ih =>
    rw [refersTo_cons, refersTo_cons] at h
    exact List.forall_mem_cons.mpr ⟨trivial, ih h.2.2⟩
  | case4 t u ts _ ih =>
    rw [refersTo_cons] at h
    exact List.forall_mem_cons.mpr ⟨h.1, ih h.2⟩

namespace Compiler

variable (k : Compiler) {p : Protocol} {N : Text → Prop}

theorem encode_obeys (hp : p.Refers N) (mode : Mode) (depth : Nat) (i : StringItem) (h : i.RefersTo N) :
    (k.encode p mode depth i).Obeys (p.Found N) fun _ => True := by
  induction depth using Nat.strongRecOn generalizing i with
  | ind depth ih =>
    cases i with
    | signed sign number =>
      rw [encode]
      exact .located _ _ _
    | token t =>
      rw [encode]
      split
      · exact .located _ _ _
      · next reference =>
        refine .bind (Protocol.resolve_obeys hp t (h reference)) ?_
        intro value hvalue
        cases depth with
        | zero => exact .fault _ _ _
        | succ depth =>
          exact .flatMap_uses _ fun i hi => ih depth (Nat.lt_succ_self depth) i (stringItems_refersTo value hvalue i hi)
      · exact .pure trivial
      · exact .located _ _ _
      · split
        · exact .pure trivial
        · exact .fault _ _ _
      · exact .fault _ _ _

theorem compileLine_obeys (hp : p.Refers N) (mode : Mode) (position : Nat) (run : List StringItem)
    (h : ∀ i ∈ run, i.RefersTo N) : (k.compileLine p mode position run).Obeys (p.Found N) fun _ => True := by
  rw [compileLine]
  refine .bind (.flatMap_uses run fun i hi => k.encode_obeys hp mode _ i (h i hi)) ?_
  intro cells _
  split
  · exact .pure trivial
  · exact .pure trivial
  · exact .ofExcept fun _ _ => trivial

theorem compileLines_obeys (hp : p.Refers N) (mode : Mode) (position : Nat) (runs : List (List StringItem))
    (h : ∀ i ∈ runs.flatten, i.RefersTo N) :
    (k.compileLines p mode position runs).Obeys (p.Found N) fun _ => True := by
  induction runs generalizing position with
  | nil => exact .pure trivial
  | cons run runs ih =>
    rw [List.flatten_cons, List.forall_mem_append] at h
    refine .bind (k.compileLine_obeys hp mode position run h.1) ?_
    intro front _
    refine .bind (ih _ h.2) ?_
    intro back _
    exact .pure trivial

theorem compileString_obeys (hp : p.Refers N) (mode : Mode) (ts : List Token) (h : RefersTo N ts) :
    (k.compileString p mode ts).Obeys (p.Found N) fun _ => True := by
  have items := stringItems_refersTo ts h
  rw [← lineRuns_flatten (stringItems ts)] at items
  refine .bind (k.compileLines_obeys hp mode 0 _ items) ?_
  intro cells _
  exact .pure trivial

theorem compileNamed_obeys (hp : p.Refers N) (name : Text) (line : Int) (a : Arguments) (h : RefersTo N a.rest) :
    (k.compileNamed p name line a).Obeys (p.Found N) fun _ => True := by
  rw [compileNamed]
  split
  · refine .bind (k.compileString_obeys hp _ a.rest h) ?_
    intro is _
    exact .pure trivial
  · split
    · refine .bind (Protocol.commandNumber_obeys hp a h) ?_
      intro n _
      exact .pure trivial
    · split
      · refine .bind (Protocol.eventOperands_obeys hp a h) ?_
        intro operands _
        exact .pure trivial
      · split
        · exact .pure trivial
        · exact .fault _ _ _

theorem compileCommand_obeys (hp : p.Refers N) (segment : Token × List Token) (h : RefersTo N segment.2) :
    (k.compileCommand p segment).Obeys (p.Found N) fun _ => True := by
  obtain ⟨word, arguments⟩ := segment
  have rest : RefersTo N (Arguments.ofTokens arguments).skipBlanks.rest :=
    RefersTo.subset h (Arguments.ofTokens arguments).rest_skipBlanks
  refine .bind (.mapFault _ (k.compileNamed_obeys hp word.text word.line _ rest)) ?_
  rintro ⟨command, a⟩ _
  dsimp only
  split
  · exact .pure trivial
  · exact .fault _ _ _

end Compiler

theorem commandSegments_subset (ts : List Token) (segment : Token × List Token) (h : segment ∈ commandSegments ts) :
    segment.2 ⊆ ts := by
  fun_induction commandSegments ts with
  | case1 => simp at h
  | case2 t rest ih =>
    rcases List.mem_cons.mp h with rfl | h
    · exact List.Subset.trans (List.takeWhile_subset _) (List.subset_cons_self t rest)
    · have drop : (rest.dropWhile fun u => u.kind != .terminator).drop 1 ⊆ rest :=
        List.Subset.trans (List.drop_subset _ _) (List.dropWhile_subset _)
      exact List.Subset.trans (ih h) (List.Subset.trans drop (List.subset_cons_self t rest))

namespace Compiler

variable (k : Compiler) {p : Protocol} {N : Text → Prop}

theorem compileCommands_obeys (hp : p.Refers N) (ts : List Token) (h : RefersTo N ts) :
    (k.compileCommands p ts).Obeys (p.Found N) fun _ => True := by
  rw [compileCommands]
  split
  · exact .fault _ _ _
  · refine .bind (.forAll (commandSegments ts) fun segment hs => k.compileCommand_obeys hp segment ?_) ?_
    · exact h.subset (commandSegments_subset ts segment hs)
    · intro commands _
      exact .pure trivial

theorem handlerProgram_obeys (hp : p.Refers N) (name : Text) (h : N name) :
    (k.handlerProgram p name).Obeys (p.Found N) fun _ => True := by
  refine .bind (Protocol.consult_obeys name h) ?_
  intro b hb
  cases b with
  | none => exact .pure trivial
  | some b =>
    have value := hp.bindings b (p.mem_of_lookup name b hb.symm)
    dsimp only
    split
    · exact .pure trivial
    · refine .bind (.mapFault _ (k.compileCommands_obeys hp b.value value)) ?_
      intro program _
      exact .pure trivial

theorem handlerPrograms_obeys (hp : p.Refers N) (h : ∀ name ∈ knownHandlers, N name) :
    (k.handlerPrograms p).Obeys (p.Found N) fun _ => True := by
  refine .flatMap_uses _ ?_
  intro name hname
  refine .bind (k.handlerProgram_obeys hp name (h name hname)) ?_
  intro program _
  cases program with
  | none => exact .pure trivial
  | some program => exact .pure trivial

/-- Once the handlers have been compiled, every handler that the engine looks up has been consulted. -/
theorem handlerPrograms_consults (programs : List (Text × Program)) (known : Text) (b : Binding)
    (h : (k.handlerPrograms p).result = .ok programs) (mem : known ∈ knownHandlers) (bound : p.lookup known = some b) :
    .binding b.name ∈ (k.handlerPrograms p).uses := by
  refine Traced.mem_uses_flatMap _ knownHandlers programs known _ h mem ?_
  refine Traced.mem_uses_bind_left _ _ _ (Traced.mem_uses_bind_left _ _ _ ?_)
  rw [Protocol.consult, bound]
  exact Traced.mem_uses_bind_left _ _ _ (List.mem_singleton_self _)

theorem ownProgram_obeys (hp : p.Refers N) :
    (k.ownProgram p).Obeys (fun u => u = .commands ∨ p.Found N u) fun _ => True := by
  refine .bind (.use (.inl rfl)) ?_
  intro _ _
  split
  · exact .pure trivial
  · have commands := k.compileCommands_obeys hp p.commands.value hp.commands
    refine .bind (.mapFault _ (commands.mono (fun _ hu => .inr hu) fun _ _ => trivial)) ?_
    intro program _
    exact .pure trivial

theorem compileInstance_obeys (hp : p.Refers N) (h : ∀ name ∈ knownHandlers, N name) :
    (k.compileInstance p).Obeys (fun u => u = .commands ∨ p.Found N u) fun _ => True := by
  refine .bind ((k.handlerPrograms_obeys hp h).mono (fun _ hu => .inr hu) fun _ _ => trivial) ?_
  intro _ _
  refine .bind (k.ownProgram_obeys hp) ?_
  intro program _
  exact .pure trivial

end Compiler

namespace Protocol

variable {p : Protocol} {N : Text → Prop}

theorem numberVariable_obeys (hp : p.Refers N) (name : Text) (limit : Int) (h : N name) :
    (p.numberVariable name limit).Obeys (p.Found N) fun _ => True := by
  refine .bind (consult_obeys name h) ?_
  intro b hb
  cases b with
  | none => exact .pure trivial
  | some b =>
    have value := hp.bindings b (p.mem_of_lookup name b hb.symm)
    refine .bind (.mapFault _ (compileNumber_obeys hp (Arguments.ofTokens b.value) limit value)) ?_
    rintro ⟨n, a⟩ _
    dsimp only
    split
    · exact .pure trivial
    · exact .fault _ _ _

theorem choiceVariable_obeys (name : Text) (choices : List Text) (h : N name) :
    (p.choiceVariable name choices).Obeys (p.Found N) fun _ => True := by
  refine .bind (consult_obeys name h) ?_
  intro b _
  cases b with
  | none => exact .pure trivial
  | some b =>
    dsimp only
    split
    · exact .pure trivial
    · exact .fault _ _ _

end Protocol

def settingNames : List Text :=
  ["locktimeout".toList, "writetimeout".toList, "replytimeout".toList, "readtimeout".toList, "pollperiod".toList,
   "maxinput".toList, "terminator".toList, "interminator".toList, "outterminator".toList, "separator".toList,
   "extrainput".toList]

namespace Compiler

variable (k : Compiler) {p : Protocol} {N : Text → Prop}

theorem stringVariable_obeys (hp : p.Refers N) (name : Text) (h : N name) :
    (k.stringVariable p name).Obeys (p.Found N) fun _ => True := by
  refine .bind (Protocol.consult_obeys name h) ?_
  intro b hb
  cases b with
  | none => exact .pure trivial
  | some b =>
    have value := hp.bindings b (p.mem_of_lookup name b hb.symm)
    refine .bind (.mapFault _ (compileString_obeys _ hp .plain b.value value)) ?_
    intro is _
    exact .pure trivial

theorem numberSetting_obeys (hp : p.Refers N) (name : String) (default : Int) (h : N name.toList) :
    (numberSetting p name default).Obeys (p.Found N) fun _ => True := by
  refine .bind (Protocol.numberVariable_obeys hp name.toList maxNumber h) ?_
  intro n _
  cases n with
  | none => exact .pure trivial
  | some n => exact .pure trivial

theorem stringSetting_obeys (hp : p.Refers N) (name : String) (default : List Instruction) (h : N name.toList) :
    (k.stringSetting p name default).Obeys (p.Found N) fun _ => True := by
  refine .bind (k.stringVariable_obeys hp name.toList h) ?_
  intro is _
  exact .pure trivial

theorem readSettings_obeys (hp : p.Refers N) (h : ∀ name ∈ settingNames, N name) :
    (k.readSettings p).Obeys (p.Found N) fun _ => True := by
  have number (name : String) (default : Int) (mem : name.toList ∈ settingNames) :=
    numberSetting_obeys hp name default (h _ mem)
  have string (name : String) (default : List Instruction) (mem : name.toList ∈ settingNames) :=
    k.stringSetting_obeys hp name default (h _ mem)
  refine .bind (number "locktimeout" 5000 (by decide)) fun _ _ => ?_
  refine .bind (number "writetimeout" 100 (by decide)) fun _ _ => ?_
  refine .bind (number "replytimeout" 1000 (by decide)) fun _ _ => ?_
  refine .bind (number "readtimeout" 100 (by decide)) fun _ _ => ?_
  refine .bind (Protocol.numberVariable_obeys hp _ _ (h _ (by decide))) fun _ _ => ?_
  refine .bind (number "maxinput" 0 (by decide)) fun _ _ => ?_
  refine .bind (string "terminator" [] (by decide)) fun _ _ => ?_
  refine .bind (string "interminator" _ (by decide)) fun _ _ => ?_
  refine .bind (string "outterminator" _ (by decide)) fun _ _ => ?_
  refine .bind (string "separator" [] (by decide)) fun _ _ => ?_
  refine .bind (Protocol.choiceVariable_obeys _ _ (h _ (by decide))) fun _ _ => ?_
  exact .pure trivial

theorem compileProtocol_obeys (hp : p.Refers N) (handlers : ∀ name ∈ knownHandlers, N name)
    (settings : ∀ name ∈ settingNames, N name) :
    (k.compileProtocol p).Obeys (fun u => u = .commands ∨ p.Found N u) fun _ => True := by
  refine .bind ((k.readSettings_obeys hp settings).mono (fun _ hu => .inr hu) fun _ _ => trivial) ?_
  intro _ _
  refine .bind ((k.handlerPrograms_obeys hp handlers).mono (fun _ hu => .inr hu) fun _ _ => trivial) ?_
  intro _ _
  refine .bind (k.ownProgram_obeys hp) ?_
  intro program _
  exact .pure trivial

end Compiler
end DeviceProtocol
