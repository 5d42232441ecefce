import DeviceProtocol.Proofs.AlikeProtocols
import DeviceProtocol.Proofs.HostRequests
import DeviceProtocol.Proofs.Lines
import DeviceProtocol.Proofs.ReadableOutline
import DeviceProtocol.Proofs.SettledReferences
import DeviceProtocol.Proofs.UnrelatedProtocols
import DeviceProtocol.Proofs.WrittenFiles
set_option autoImplicit false

/-!
A variable that is assigned in front of a source has no effect if the source neither assigns it nor asks for a beginning
of its name.

All bindings of the longer source then have this one in front of them, and every step of reading gives the same with it
and without it: the same failure, or protocols that differ in their first binding only.
-/
namespace DeviceProtocol

open Scanner

/-- Asking for the name cannot find a variable that is called `v`. -/
def Apart (v name : Text) : Prop := ¬ Text.lower name <+: v

instance (v : Text) : DecidablePred (Apart v) := fun name => inferInstanceAs (Decidable (¬ Text.lower name <+: v))

theorem Apart.ne {v name : Text} (h : Apart v name) : Text.lower name ≠ v := by
  rintro rfl
  exact h List.prefix_rfl

theorem apart_of_isHandlerName {v : Text} (variableName : isHandlerName v = false) (name : Text)
    (handler : isHandlerName name = true) : Apart v name := by
  rintro ⟨rest, rfl⟩
  have first := isHandlerName_lower name handler
  cases lower : Text.lower name with
  | nil => simp [lower, isHandlerName] at first
  | cons c cs =>
    rw [lower] at first variableName
    simp_all [isHandlerName]

/-- What assigns these names and holds these values has nothing to do with the variable `v`: it neither assigns `v` nor
asks for a beginning of this name. -/
structure Unrelated (v : Text) (assigned : List Text) (values : List Token) : Prop where
  unassigned : ∀ name ∈ assigned, Text.lower name ≠ v
  unnamed : RefersTo (Apart v) values

instance (v : Text) (assigned : List Text) (values : List Token) : Decidable (Unrelated v assigned values) :=
  decidable_of_iff ((∀ name ∈ assigned, Text.lower name ≠ v) ∧ RefersTo (Apart v) values)
    ⟨fun h => ⟨h.1, h.2⟩, fun h => ⟨h.unassigned, h.unnamed⟩⟩

namespace BodyItem

/-- The names of the variables that are assigned in an item. -/
def assigned : BodyItem → List Text
  | assignment name _ _ => [name]
  | _ => []

def Unrelated (v : Text) (item : BodyItem) : Prop := DeviceProtocol.Unrelated v item.assigned item.values

end BodyItem

namespace Statement

def assigned : Statement → List Text
  | assignment name _ _ => [name]
  | handler _ _ _ => []
  | definition _ _ _ items => items.flatMap BodyItem.assigned

def Unrelated (v : Text) (statement : Statement) : Prop :=
  DeviceProtocol.Unrelated v statement.assigned statement.values

instance (v : Text) : DecidablePred (Unrelated v) := fun statement =>
  inferInstanceAs (Decidable (DeviceProtocol.Unrelated v statement.assigned statement.values))

theorem Unrelated.items {v name : Text} {line : Int} {parameters : List Text} {items : List BodyItem}
    (h : (definition name line parameters items).Unrelated v) : ∀ item ∈ items, item.Unrelated v := by
  intro item mem
  exact ⟨fun name hn => h.unassigned name (List.mem_flatMap.mpr ⟨item, mem, hn⟩),
    h.unnamed.subset fun t ht => List.mem_flatMap.mpr ⟨item, mem, ht⟩⟩

end Statement

namespace Protocol

def tail (p : Protocol) : Protocol := { p with bindings := p.bindings.tail }

/-- The first binding is that of the variable `v`. -/
def Leads (v : Text) (p : Protocol) : Prop := ∃ b bs, p.bindings = b :: bs ∧ b.name = v

variable {v : Text} {p : Protocol}

theorem lookup_tail (h : p.Leads v) (name : Text) (apart : Apart v name) : p.tail.lookup name = p.lookup name := by
  obtain ⟨b, bs, bindings, rfl⟩ := h
  have shorter : (Text.lower name).isPrefixOf b.name = false := by
    rwa [← Bool.not_eq_true, List.isPrefixOf_iff_prefix]
  simp [lookup, tail, bindings, apart.ne.symm, shorter]

theorem consult_tail (h : p.Leads v) (name : Text) (apart : Apart v name) : p.tail.consult name = p.consult name := by
  rw [consult, consult, lookup_tail h name apart]

theorem resolve_tail (h : p.Leads v) (t : Token) (apart : Apart v t.text) : p.tail.resolve t = p.resolve t := by
  have slot : p.tail.slot = p.slot := by
    funext i
    cases i <;> rfl
  rw [resolve, resolve, consult_tail h t.text apart, slot]
  rfl

theorem settleAfter_tail (h : p.Leads v) (front ts : List Token) (apart : RefersTo (Apart v) ts) :
    p.tail.settleAfter front ts = p.settleAfter front ts := by
  induction ts generalizing front with
  | nil => rfl
  | cons t ts ih =>
    rw [refersTo_cons] at apart
    rw [settleAfter, settleAfter]
    split
    · next reference =>
      refine congrArg _ (funext fun i => ?_)
      cases i with
      | some i => exact ih _ apart.2
      | none =>
        dsimp only
        rw [resolve_tail h t (apart.1 reference)]
        exact congrArg _ (funext fun value => ih _ apart.2)
    · split
      · exact ih _ apart.2
      · exact ih _ apart.2

theorem settle_tail (h : p.Leads v) (ts : List Token) (apart : RefersTo (Apart v) ts) :
    p.tail.settle ts = p.settle ts := by
  rw [settle, settle, settleAfter_tail h [] ts apart]

theorem touch_tail (p : Protocol) (uses : List Use) : (p.touch uses).tail = p.tail.touch uses := by
  simp [touch, tail, List.map_tail]

theorem Leads.touch (h : p.Leads v) (uses : List Use) : (p.touch uses).Leads v := by
  obtain ⟨b, bs, bindings, rfl⟩ := h
  exact ⟨touchBy uses b, bs.map (touchBy uses), by simp [Protocol.touch, bindings], rfl⟩

theorem assign_tail (h : p.Leads v) (name : Text) (line : Int) (value : List Token) (other : Text.lower name ≠ v) :
    (p.assign name line value).tail = p.tail.assign name line value ∧ (p.assign name line value).Leads v := by
  obtain ⟨b, bs, bindings, rfl⟩ := h
  have apart : b.name ≠ Text.lower name := other.symm
  cases known : bs.any fun c => c.name == Text.lower name with
  | true => simp [assign, declare, tail, Leads, bindings, known, apart]
  | false => simp [assign, declare, tail, Leads, bindings, known, apart]

theorem readAssignment_tail (h : p.Leads v) (name : Text) (line : Int) (s : Scanner) (other : Text.lower name ≠ v)
    (apart : RefersTo (Apart v) s.readRawValue.1) :
    p.tail.readAssignment name line s = (p.readAssignment name line s).map tail id ∧
      (p.readAssignment name line s).1.Leads v := by
  have touched := h.touch (p.settle s.readRawValue.1).uses
  simp only [readAssignment, settle_tail h s.readRawValue.1 apart]
  split
  · exact ⟨by rw [← touch_tail]; rfl, touched⟩
  · exact ⟨by rw [← touch_tail]; rfl, touched⟩
  · next value s' _ _ =>
    obtain ⟨same, leads⟩ := assign_tail touched name line value other
    exact ⟨by rw [← touch_tail, ← same]; rfl, leads⟩

end Protocol

theorem ProtocolFile.findIn_tail (protocols : List Protocol) (name : Text) :
    findIn (protocols.map Protocol.tail) name = (findIn protocols name).map Protocol.tail := by
  have unnamed (f : Text → Bool) : (fun p => f p.name) ∘ Protocol.tail = fun p : Protocol => f p.name := rfl
  simp only [findIn, List.find?_map, unnamed fun n => n == Text.lower name,
    unnamed fun n => (Text.lower name).isPrefixOf n, Option.map_or]

namespace Scanner

variable (protocols : List Protocol)

theorem readCommand_tail (name : Text) (line : Int) (after : Option Char) (s : Scanner) :
    readCommand (protocols.map Protocol.tail) name line after s = readCommand protocols name line after s := by
  have same : inlined? (protocols.map Protocol.tail) name after = inlined? protocols name after := by
    simp only [inlined?, ProtocolFile.findIn_tail, Option.map_map]
    rfl
  rw [readCommand, readCommand, same]

def andThen {α β : Type} (r : Result α) (next : α → Scanner → Result β) : Result β :=
  match r with
  | .ok a s => next a s
  | .error e s => .error e s

def mapResult {α β : Type} (g : α → β) (r : Result α) : Result β := andThen r fun a => .ok (g a)

theorem noted_mapResult {α β : Type} (g : α → β) (line : Int) (note : Note) (r : Result α) :
    noted line note (mapResult g r) = mapResult g (noted line note r) := by
  cases r <;> rfl

theorem readHandler_of_command (s s₁ : Scanner) (name : Text) (line : Int) (after : Option Char)
    (head : s.readHead false = .ok (.named name line after) s₁) (assigns : after ≠ some '=')
    (opens : after ≠ some '\x7b') (plain : ¬ isHandlerName name = true) :
    readHandler protocols s =
      andThen (readCommand protocols name line after s₁) fun command s₂ =>
        andThen (readHandler protocols s₂) fun commands => .ok (command ++ commands) := by
  rw [readHandler]
  split <;> rename_i h <;> cases head.symm.trans h
  simp only [assigns, opens, plain, Bool.false_eq_true, if_false]
  split <;> rename_i h
  · rw [h, andThen]
  · rw [h, andThen]
    cases readHandler protocols _ <;> rfl

theorem readHandler_tail (s : Scanner) : readHandler (protocols.map Protocol.tail) s = readHandler protocols s := by
  fun_induction readHandler protocols s with
  | case8 s name line after s₁ head assigns opens plain e s₂ command =>
    rw [readHandler_of_command _ s s₁ name line after head assigns opens plain, readCommand_tail, command, andThen]
  | case9 s name line after s₁ head assigns opens plain ts s₂ command e s₃ rest ih =>
    rw [readHandler_of_command _ s s₁ name line after head assigns opens plain, readCommand_tail, command, andThen, ih,
      rest, andThen]
  | case10 s name line after s₁ head assigns opens plain ts s₂ command commands s₃ rest ih =>
    rw [readHandler_of_command _ s s₁ name line after head assigns opens plain, readCommand_tail, command, andThen, ih,
      rest, andThen]
  | _ =>
    rw [readHandler]
    split <;> simp_all

theorem readBody_of_assignment (p : Protocol) (s s₁ : Scanner) (name : Text) (line : Int)
    (head : s.readHead false = .ok (.named name line (some '=')) s₁) (plain : ¬ isHandlerName name = true) :
    readBody protocols p s =
      andThen (p.readAssignment name line s₁).2 fun _ => readBody protocols (p.readAssignment name line s₁).1 := by
  rw [readBody]
  split <;> rename_i h <;> cases head.symm.trans h
  simp only [plain, if_true, Bool.false_eq_true, if_false]
  split <;> rename_i h <;> rw [h, andThen]

theorem readBody_of_handler (p : Protocol) (s s₁ : Scanner) (name : Text) (line : Int)
    (head : s.readHead false = .ok (.named name line (some '\x7b')) s₁) (handler : isHandlerName name = true) :
    readBody protocols p s =
      andThen (noted line (.inHandler name) (readHandler protocols s₁)) fun ts =>
        readBody protocols (p.assign name line ts) := by
  rw [readBody]
  split <;> rename_i h <;> cases head.symm.trans h
  simp only [handler, if_true, Option.some.injEq, show ('\x7b' = '=') = False by decide, if_false]
  split <;> rename_i h <;> rw [h, andThen]

theorem readBody_of_command (p : Protocol) (s s₁ : Scanner) (name : Text) (line : Int) (after : Option Char)
    (head : s.readHead false = .ok (.named name line after) s₁) (assigns : after ≠ some '=')
    (opens : after ≠ some '\x7b') (plain : ¬ isHandlerName name = true) :
    readBody protocols p s =
      andThen (readCommand protocols name line after s₁) fun ts => readBody protocols (p.addCommands ts) := by
  rw [readBody]
  split <;> rename_i h <;> cases head.symm.trans h
  simp only [assigns, opens, plain, Bool.false_eq_true, if_false]
  split <;> rename_i h <;> rw [h, andThen]

variable {v : Text}

theorem readBody_tail (variableName : isHandlerName v = false) (p : Protocol) (s : Scanner) (h : p.Leads v)
    (unrelated : ∀ item ∈ s.bodyOutline.1, item.Unrelated v) :
    readBody (protocols.map Protocol.tail) p.tail s = mapResult Protocol.tail (readBody protocols p s) ∧
      ∀ q s', readBody protocols p s = .ok q s' → q.Leads v := by
  -- Behind an item the outline goes on with the outline of the text behind it, as the rest of the body does.
  fun_induction readBody protocols p s with
  | case2 p s s₁ head | case3 p s s₁ head =>
    refine ⟨?_, ?_⟩
    · rw [readBody]
      split <;> rename_i h' <;> cases head.symm.trans h'
      rfl
    · intro q s' same
      cases same
      exact h
  | case5 p s name line s₁ plain q e s₂ read head =>
    -- The value may end in the middle. The tokens before that place settle first, and their fault comes first.
    have item := unrelated _ (bodyOutline_assigned s s₁ name line head (by simpa using plain))
    obtain ⟨same, -⟩ := Protocol.readAssignment_tail h name line s₁ (item.unassigned name (by simp [BodyItem.assigned]))
      item.unnamed
    rw [readBody_of_assignment _ p.tail s s₁ name line head plain, same, read]
    exact ⟨rfl, by simp⟩
  | case6 p s name line s₁ plain p₁ s₂ read head ih =>
    have item := unrelated _ (bodyOutline_assigned s s₁ name line head (by simpa using plain))
    obtain ⟨same, leads⟩ := Protocol.readAssignment_tail h name line s₁
      (item.unassigned name (by simp [BodyItem.assigned])) item.unnamed
    obtain ⟨value, tokens, -⟩ := (p.readAssignment_eq_ok_iff p₁ name line s₁ s₂).mp read
    rw [bodyOutline_assignment s s₁ s₂ name line value head (by simpa using plain) tokens, List.forall_mem_cons]
      at unrelated
    rw [read] at leads
    rw [readBody_of_assignment _ p.tail s s₁ name line head plain, same, read]
    exact ih leads unrelated.2
  | case7 p s name line s₁ handler e s₂ read head opens =>
    rw [readBody_of_handler _ p.tail s s₁ name line head handler, readHandler_tail, read]
    exact ⟨rfl, by simp⟩
  | case8 p s name line s₁ handler ts s₂ read head opens ih =>
    obtain ⟨cs, commands, -⟩ := (readHandler_eq_ok_iff protocols s₁ s₂ ts).mp (noted_eq_ok _ _ _ _ _ read)
    rw [bodyOutline_handler s s₁ s₂ name line cs head handler commands, List.forall_mem_cons] at unrelated
    obtain ⟨same, leads⟩ := Protocol.assign_tail h name line ts (apart_of_isHandlerName variableName name handler).ne
    rw [readBody_of_handler _ p.tail s s₁ name line head handler, readHandler_tail, read, andThen, ← same]
    exact ih leads unrelated.2
  | case11 p s name line after s₁ head assigns opens plain e s₂ read =>
    rw [readBody_of_command _ p.tail s s₁ name line after head assigns opens plain, readCommand_tail, read]
    exact ⟨rfl, by simp⟩
  | case12 p s name line after s₁ head assigns opens plain ts s₂ read ih =>
    obtain ⟨c, first, -⟩ := (commandAt_iff_readCommand protocols s s₂ ts).mpr
      ⟨name, line, after, s₁, head, assigns, opens, by simpa using plain, read⟩
    rw [bodyOutline_command s s₂ c first, List.forall_mem_cons] at unrelated
    rw [readBody_of_command _ p.tail s s₁ name line after head assigns opens plain, readCommand_tail, read]
    exact ih h unrelated.2
  | _ =>
    refine ⟨?_, by simp [fail]⟩
    rw [readBody]
    split <;> simp_all [mapResult, andThen, fail]

end Scanner

namespace ProtocolFile

def tail (f : ProtocolFile) : ProtocolFile :=
  { f with globals := f.globals.tail, protocols := f.protocols.map Protocol.tail }

structure Leads (v : Text) (f : ProtocolFile) : Prop where
  globals : f.globals.Leads v
  protocols : ∀ p ∈ f.protocols, p.Leads v

variable {v : Text} {f : ProtocolFile}

theorem readDefinition_tail (variableName : isHandlerName v = false) (h : f.Leads v) (name : Text) (line : Int)
    (parameters : List Text) (s : Scanner) (unrelated : ∀ item ∈ s.bodyOutline.1, item.Unrelated v) :
    f.tail.readDefinition name line parameters s = mapResult Protocol.tail (f.readDefinition name line parameters s) ∧
      ∀ q s', f.readDefinition name line parameters s = .ok q s' → q.Leads v := by
  have found : (f.tail.protocols.find? fun p => p.name == name) =
      (f.protocols.find? fun p => p.name == name).map Protocol.tail := List.find?_map
  rw [readDefinition, readDefinition, found]
  cases f.protocols.find? fun p => p.name == name with
  | some p => exact ⟨rfl, by simp [noted, fail]⟩
  | none =>
    let start := f.template name line parameters
    obtain ⟨same, leads⟩ := readBody_tail f.protocols variableName start s h.globals unrelated
    refine ⟨?_, fun q s' read => leads q s' (noted_eq_ok _ _ _ _ _ read)⟩
    show noted line (.inProtocol name) (readBody (f.protocols.map Protocol.tail) start.tail s) =
      mapResult Protocol.tail (noted line (.inProtocol name) (readBody f.protocols start s))
    rw [same, noted_mapResult]

def proceed {α : Type} (f : ProtocolFile) (r : Result α) (next : α → Scanner → ProtocolFile × Option Failure) :
    ProtocolFile × Option Failure :=
  match r with
  | .ok a s => next a s
  | .error e _ => (f, some e)

theorem readStatements_of_assignment (f : ProtocolFile) (s s₁ : Scanner) (name : Text) (line : Int)
    (head : s.readHead true = .ok (.named name line (some '=')) s₁) (plain : ¬ isHandlerName name = true) :
    f.readStatements s =
      proceed { f with globals := (f.globals.readAssignment name line s₁).1 } (f.globals.readAssignment name line s₁).2
        fun _ => readStatements { f with globals := (f.globals.readAssignment name line s₁).1 } := by
  rw [readStatements]
  split <;> rename_i h <;> cases head.symm.trans h
  simp only [plain, if_true, Bool.false_eq_true, if_false]
  split <;> rename_i h <;> rw [h, proceed]

theorem readStatements_of_handler (f : ProtocolFile) (s s₁ : Scanner) (name : Text) (line : Int)
    (head : s.readHead true = .ok (.named name line (some '\x7b')) s₁) (handler : isHandlerName name = true) :
    f.readStatements s =
      proceed f (noted line (.inHandler name) (s₁.readHandler f.protocols)) fun ts =>
        readStatements { f with globals := f.globals.assign name line ts } := by
  rw [readStatements]
  split <;> rename_i h <;> cases head.symm.trans h
  simp only [handler, if_true, Option.some.injEq, show ('\x7b' = '=') = False by decide, if_false]
  split <;> rename_i h <;> rw [h, proceed]

theorem readStatements_of_definition (f : ProtocolFile) (s s₁ : Scanner) (name : Text) (line : Int)
    (after : Option Char) (head : s.readHead true = .ok (.named name line after) s₁)
    (plain : ¬ isHandlerName name = true) (opens : after = some '\x7b' ∨ after = some '(') :
    f.readStatements s =
      proceed f (readOpening name after s₁) fun parameters s₂ =>
        proceed f (f.readDefinition name line parameters s₂) fun p =>
          readStatements { f with protocols := f.protocols ++ [p] } := by
  have assigns : after ≠ some '=' := by rcases opens with rfl | rfl <;> decide
  rw [readStatements]
  split <;> rename_i h <;> cases head.symm.trans h
  simp only [assigns, plain, Bool.false_eq_true, if_false, Bool.or_eq_true, decide_eq_true_eq, opens, if_true]
  split <;> rename_i h
  · rw [h, proceed]
  · rw [h, proceed]
    split <;> rename_i h <;> rw [h, proceed]

theorem readStatements_tail (variableName : isHandlerName v = false) (h : f.Leads v) (s : Scanner)
    (unrelated : ∀ statement ∈ s.outline, statement.Unrelated v) :
    f.tail.readStatements s = (f.readStatements s).map tail id ∧ (f.readStatements s).1.Leads v := by
  -- the outline goes along with the reader, so each statement is known to be unrelated when it is read
  fun_induction readStatements f s with
  | case2 f s s₁ head =>
    refine ⟨?_, h.globals, h.protocols⟩
    rw [readStatements]
    split <;> rename_i h' <;> cases head.symm.trans h'
    rfl
  | case5 f s name line s₁ plain p e s₂ read head =>
    have statement := unrelated _ (outline_assigned s s₁ name line head (by simpa using plain))
    obtain ⟨same, leads⟩ := Protocol.readAssignment_tail h.globals name line s₁
      (statement.unassigned name (by simp [Statement.assigned])) statement.unnamed
    rw [readStatements_of_assignment f.tail s s₁ name line head plain]
    simp only [tail, same, read]
    rw [read] at leads
    exact ⟨rfl, leads, h.protocols⟩
  | case6 f s name line s₁ plain p s₂ read head ih =>
    have statement := unrelated _ (outline_assigned s s₁ name line head (by simpa using plain))
    obtain ⟨same, leads⟩ := Protocol.readAssignment_tail h.globals name line s₁
      (statement.unassigned name (by simp [Statement.assigned])) statement.unnamed
    obtain ⟨value, tokens, -⟩ := (f.globals.readAssignment_eq_ok_iff p name line s₁ s₂).mp read
    rw [outline_assignment s s₁ s₂ name line value head (by simpa using plain) tokens, List.forall_mem_cons]
      at unrelated
    rw [read] at leads
    rw [readStatements_of_assignment f.tail s s₁ name line head plain]
    simp only [tail, same, read]
    exact ih ⟨leads, h.protocols⟩ unrelated.2
  | case7 f s name line s₁ handler e s₂ read head opens =>
    rw [readStatements_of_handler f.tail s s₁ name line head handler]
    simp only [tail, readHandler_tail, read]
    exact ⟨rfl, h⟩
  | case8 f s name line s₁ handler ts s₂ read head opens ih =>
    obtain ⟨cs, commands, -⟩ := (readHandler_eq_ok_iff f.protocols s₁ s₂ ts).mp (noted_eq_ok _ _ _ _ _ read)
    rw [outline_handler s s₁ s₂ name line cs head handler commands, List.forall_mem_cons] at unrelated
    obtain ⟨same, leads⟩ := Protocol.assign_tail h.globals name line ts
      (apart_of_isHandlerName variableName name handler).ne
    rw [readStatements_of_handler f.tail s s₁ name line head handler]
    simp only [tail, readHandler_tail, read, proceed, ← same]
    exact ih ⟨leads, h.protocols⟩ unrelated.2
  | case10 f s name line after s₁ head assigns plain opens e s₂ opening =>
    rw [readStatements_of_definition f.tail s s₁ name line after head plain (by simpa using opens), opening]
    exact ⟨rfl, h⟩
  | case11 f s name line after s₁ head assigns plain opens parameters s₂ opening e s₃ read =>
    have opens' : after = some '\x7b' ∨ after = some '(' := by simpa using opens
    have statement :=
      unrelated _ (outline_defined s s₁ s₂ name line after parameters head (by simpa using plain) opens' opening)
    obtain ⟨same, -⟩ := readDefinition_tail variableName h name line parameters s₂ statement.items
    rw [readStatements_of_definition f.tail s s₁ name line after head plain opens', opening, proceed, same, read]
    exact ⟨rfl, h⟩
  | case12 f s name line after s₁ head assigns plain opens parameters s₂ opening p s₃ read ih =>
    have opens' : after = some '\x7b' ∨ after = some '(' := by simpa using opens
    obtain ⟨items, body, -⟩ := (f.readDefinition_eq_ok_iff name line parameters s₂ s₃ p).mp read
    have outlined := (bodyOutline_eq_iff s₂ s₃ items).mpr body
    rw [outline_definition s s₁ s₂ s₃ name line after parameters items head (by simpa using plain) opens' opening body,
      List.forall_mem_cons] at unrelated
    obtain ⟨same, leads⟩ := readDefinition_tail variableName h name line parameters s₂
      (by rw [outlined]; exact unrelated.1.items)
    rw [readStatements_of_definition f.tail s s₁ name line after head plain opens', opening, proceed, same, read]
    have leads' : ({ f with protocols := f.protocols ++ [p] } : ProtocolFile).Leads v := by
      refine ⟨h.globals, List.forall_mem_append.mpr ⟨h.protocols, ?_⟩⟩
      exact List.forall_mem_singleton.mpr (leads p s₃ read)
    obtain ⟨result, last⟩ := ih leads' unrelated.2
    have extended : ({ f with protocols := f.protocols ++ [p] } : ProtocolFile).tail =
        { f.tail with protocols := f.tail.protocols ++ [p.tail] } := by simp [tail]
    rw [extended] at result
    exact ⟨result, last⟩
  | _ =>
    refine ⟨?_, h⟩
    rw [readStatements]
    split <;> simp_all [stop]

theorem template?_tail (f : ProtocolFile) (name : Text) :
    f.tail.template? name = (f.template? name).map Protocol.tail := by
  rw [template?, template?]
  split
  · rfl
  · exact findIn_tail f.protocols name

theorem instantiate_tail (f : ProtocolFile) (text : Text) :
    f.tail.instantiate text = (f.instantiate text).map Protocol.tail := by
  rw [instantiate, instantiate]
  split
  · rfl
  · next i _ =>
    rw [template?_tail]
    cases f.template? i.name <;> rfl

theorem Leads.instantiate (h : f.Leads v) (text : Text) (p : Protocol) (hp : f.instantiate text = .ok p) :
    p.Leads v := by
  obtain ⟨t, mem, arguments, rfl⟩ := f.mem_of_instantiate text p hp
  exact h.protocols t mem

theorem Refers.instantiate {N : Text → Prop} (h : f.Refers N) (text : Text) (p : Protocol)
    (hp : f.instantiate text = .ok p) : p.Refers N := by
  obtain ⟨t, mem, arguments, rfl⟩ := f.mem_of_instantiate text p hp
  exact Protocol.copy_refers (h.protocols t mem) text 0 arguments

theorem instantiate_bind_tail {α : Type} (h : f.Leads v) (refers : f.tail.Refers (Apart v)) (text : Text)
    (use : Protocol → Except Failure α)
    (same : ∀ p, p.Leads v → p.tail.Refers (Apart v) → use p.tail = use p) :
    (f.tail.instantiate text).mapError .fault >>= use = (f.instantiate text).mapError .fault >>= use := by
  have instances := f.instantiate_tail text
  cases hp : f.instantiate text with
  | error fault =>
    rw [instances, hp]
    rfl
  | ok p =>
    rw [hp] at instances
    rw [instances]
    exact same p (h.instantiate text p hp) (refers.instantiate text p.tail instances)

end ProtocolFile

namespace Protocol

variable {v : Text} {p : Protocol}

theorem Leads.alike (h : p.Leads v) (refers : p.tail.Refers (Apart v)) : p.tail.Alike (Apart v) p where
  name := rfl
  line := rfl
  self := rfl
  arguments := rfl
  parameters := rfl
  commands := p.commands.same_refl
  lookup := by
    intro name apart
    rw [lookup_tail h name apart]
    cases p.lookup name with
    | none => exact .inl ⟨rfl, rfl⟩
    | some b => exact .inr ⟨b, b, rfl, rfl, b.same_refl⟩
  refers := refers

theorem checkBindings_tail (p : Protocol) (bs : List Binding) : p.tail.checkBindings bs = p.checkBindings bs := by
  induction bs with
  | nil => rfl
  | cons b bs ih =>
    rw [checkBindings, checkBindings, ih]
    rfl

theorem requireUsed_tail (variableName : isHandlerName v = false) (h : p.Leads v) (uses : List Use) :
    p.tail.requireUsed uses = p.requireUsed uses := by
  obtain ⟨b, bs, bindings, rfl⟩ := h.touch uses
  have plain : b.isHandler = false := variableName
  -- The messages differ, by one about the variable.
  have same : (p.touch uses).tail.checkUnused.2 = (p.touch uses).checkUnused.2 := by
    rw [checkUnused, checkBindings_tail, checkUnused, bindings]
    simp only [tail, bindings, List.tail_cons, checkBindings, plain]
    split <;> rfl
  rw [requireUsed, requireUsed, ← touch_tail, same]

end Protocol

namespace Compiler

variable {v : Text} {p : Protocol}

theorem apart_of_known (variableName : isHandlerName v = false) : ∀ name ∈ knownHandlers, Apart v name := by
  have spelled : ∀ name ∈ knownHandlers, isHandlerName name = true := by decide
  intro name known
  exact apart_of_isHandlerName variableName name (spelled name known)

theorem compileInstance_tail (k : Compiler) (variableName : isHandlerName v = false) (h : p.Leads v)
    (refers : p.tail.Refers (Apart v)) : k.compileInstance p.tail = k.compileInstance p :=
  (k.compileInstance_alike (h.alike refers) (apart_of_known variableName)).eq

theorem compileUsed_tail (k : Compiler) (variableName : isHandlerName v = false)
    (settings : ∀ name ∈ settingNames, ¬ name <+: v) (h : p.Leads v) (refers : p.tail.Refers (Apart v)) :
    k.compileUsed p.tail = k.compileUsed p := by
  have small : ∀ name ∈ settingNames, Text.lower name = name := by decide
  have others : ∀ name ∈ settingNames, Apart v name := by
    intro name mem
    rw [Apart, small name mem]
    exact settings name mem
  have same : k.compileProtocol p.tail = k.compileProtocol p :=
    (k.compileProtocol_alike (h.alike refers) others (apart_of_known variableName)).eq
  rw [compileUsed, compileUsed, same, Protocol.requireUsed_tail variableName h]

end Compiler

/-- The text `v = w;` is an assignment on one line, of a value without references, which the semicolon ends. -/
structure OneAssignment (v : Grammar.Identifier) (w : Text) : Prop where
  oneLine : '\n' ∉ w
  read : ∃ value s, StatementAt (.ofSource (v.text ++ " = ".toList ++ w ++ [';'])) (.assignment v.text 1 value) s ∧
    s.rest = [] ∧ RefersTo (fun _ => False) value

theorem OneAssignment.statementAt {v : Grammar.Identifier} {w : Text} (h : OneAssignment v w) :
    ∃ value, RefersTo (fun _ => False) value ∧ ∀ source,
      StatementAt (.ofSource (v.text ++ " = ".toList ++ w ++ ';' :: ' ' :: source)) (.assignment v.text 1 value)
        { rest := ' ' :: source } := by
  obtain ⟨value, s, first, whole, unreferenced⟩ := h.read
  have text : v.text ++ " = ".toList ++ w ++ [';'] = v.text ++ (Grammar.blanks 1 ++ '=' :: (' ' :: w ++ [';'])) := by
    simp [Grammar.blanks]
  have ended : s = { rest := [] } := by
    cases first with
    | assignment s₁ _ _ _ _ head plain tokens =>
      rw [text, Grammar.readHead_name _ true v.text '=' 1 v.named (by decide) (by decide)] at head
      cases head
      exact readRawValue_whole (' ' :: w ++ [';']) s (by simp [h.oneLine]) whole (by rw [tokens])
  refine ⟨value, unreferenced, fun source => ?_⟩
  have longer := first.followedBy (' ' :: source)
  rw [ended] at longer
  simpa [Scanner.followedBy, Scanner.ofSource] using longer

namespace Protocol

theorem settleAfter_unreferenced (p : Protocol) (front ts : List Token) (h : RefersTo (fun _ => False) ts) :
    ∃ value, p.settleAfter front ts = pure value := by
  induction ts generalizing front with
  | nil => exact ⟨front, rfl⟩
  | cons t ts ih =>
    rw [refersTo_cons] at h
    rw [settleAfter, if_neg h.1]
    split
    · exact ih _ h.2
    · exact ih _ h.2

theorem settle_unreferenced (p : Protocol) (ts : List Token) (h : RefersTo (fun _ => False) ts) :
    ∃ value, p.settle ts = pure value := by
  obtain ⟨value, settled⟩ := p.settleAfter_unreferenced [] ts h
  exact ⟨dropTrailingBlanks value, by rw [settle, settled]; rfl⟩

end Protocol

namespace ProtocolFile

theorem readStatements_of_readHead (f : ProtocolFile) (s s' : Scanner) (same : s.readHead true = s'.readHead true) :
    f.readStatements s = f.readStatements s' := by
  rw [readStatements.eq_def f s]
  split <;> rename_i head <;> symm <;> rw [readStatements.eq_def f s'] <;> split <;> rename_i head' <;>
    cases head.symm.trans (same.trans head') <;> rfl

theorem readStatements_front (file : Option Text) (v : Grammar.Identifier) (w : Text) (h : OneAssignment v w) :
    ∃ f : ProtocolFile, f.Leads v.text ∧ f.tail = empty file ∧ ∀ source,
      (empty file).readStatements (.ofSource (v.text ++ " = ".toList ++ w ++ ';' :: ' ' :: source)) =
        f.readStatements (.ofSource source) := by
  obtain ⟨value, unreferenced, first⟩ := h.statementAt
  obtain ⟨ts, settled⟩ := (empty file).globals.settle_unreferenced value unreferenced
  let globals := ((empty file).globals.touch []).assign v.text 1 ts
  have extended : (empty file).extend? (.assignment v.text 1 value) = some { empty file with globals := globals } := by
    rw [extend?, Protocol.settled?, settled]
    rfl
  have bindings : globals.bindings = [⟨v.text, ts, 1, false⟩] := by
    simp [globals, Protocol.assign, Protocol.declare, Protocol.touch, empty, Grammar.lower_of_bare v.text v.bare]
  have unbound : globals.tail = (empty file).globals := by
    simp [globals, Protocol.tail, Protocol.assign, Protocol.declare, Protocol.touch, empty]
  refine ⟨{ empty file with globals := globals }, ⟨⟨_, [], bindings, rfl⟩, by simp [empty]⟩, ?_, ?_⟩
  · rw [tail, unbound]
    rfl
  · intro source
    rw [readStatements_of_statementAt _ _ _ _ _ (first source) extended,
      readStatements_of_readHead _ _ (.ofSource source) (readHead_blank true source)]

theorem read_front (file : Option Text) (v : Grammar.Identifier) (w source : Text) (h : OneAssignment v w)
    (unrelated : ∀ statement ∈ (Scanner.ofSource source).outline, statement.Unrelated v.text) :
    ∃ f failure, f.Leads v.text ∧ read (v.text ++ " = ".toList ++ w ++ ';' :: ' ' :: source) file = (f, failure) ∧
      read source file = (f.tail, failure) := by
  obtain ⟨start, leads, unbound, front⟩ := readStatements_front file v w h
  obtain ⟨same, leads'⟩ := readStatements_tail v.not_handler leads (.ofSource source) unrelated
  refine ⟨_, _, leads', by rw [read, front], ?_⟩
  rw [read, ← unbound, same]
  rfl

theorem refers_of_unrelated (source : Text) (file : Option Text) (f : ProtocolFile) (v : Text)
    (unrelated : ∀ statement ∈ (Scanner.ofSource source).outline, statement.Unrelated v)
    (h : read source file = (f, none)) : f.Refers (Apart v) := by
  have hf : ofSource source file = .ok f := by rw [ofSource, h]
  obtain ⟨statements, -, written, -⟩ := (ofSource_eq_ok_iff source file f).mp hf
  rw [outline_of_statementsAt _ statements written] at unrelated
  refine ofSource_refers source file f statements written ?_ hf
  intro t ht
  obtain ⟨statement, mem, ht⟩ := List.mem_flatMap.mp ht
  exact (unrelated statement mem).unnamed t ht

end ProtocolFile

/-- A variable that is assigned in front of a source has no effect if the source does not assign it, and neither a name
that the source refers to nor the name of a setting is a beginning of its name. The protocols of the source compile to
the same, or fail in the same way. This goes for sources that cannot be read, too: only what can be read of them has to
be unrelated. -/
theorem compile_unrelated_variable (v : Grammar.Identifier) (w source : Text) (assigns : OneAssignment v w)
    (unrelated : ∀ statement ∈ (Scanner.ofSource source).outline, statement.Unrelated v.text)
    (settings : ∀ name ∈ settingNames, ¬ name <+: v.text) :
    let longer := v.text ++ " = ".toList ++ w ++ ';' :: ' ' :: source
    (∀ (k : Compiler) (instantiation : Text) (file : Option Text),
      k.compileSource longer instantiation file = k.compileSource source instantiation file) ∧
      ∀ (h : Host) (tree tree' : FileTree) (name path instantiation : Text),
        h.library.findFile tree name = .ok path → h.library.findFile tree' name = .ok path →
        sourceText ((tree.file? path).getD []) = source → sourceText ((tree'.file? path).getD []) = longer →
        (h.compile tree' name instantiation).result = (h.compile tree name instantiation).result := by
  intro longer
  constructor
  · intro k instantiation file
    obtain ⟨f, failure, leads, long, short⟩ := ProtocolFile.read_front file v w source assigns unrelated
    rw [Compiler.compileSource, Compiler.compileSource, ProtocolFile.ofSource, ProtocolFile.ofSource, long, short]
    cases failure with
    | some e => rfl
    | none =>
      have refers := ProtocolFile.refers_of_unrelated source file f.tail v.text unrelated short
      refine (ProtocolFile.instantiate_bind_tail leads refers instantiation _ fun p hp hr => ?_).symm
      simp only [k.compileInstance_tail v.not_handler hp hr, Protocol.requireUsed_tail v.not_handler hp]
  · intro h tree tree' name path instantiation found found' text text'
    obtain ⟨f, failure, leads, long, short⟩ := ProtocolFile.read_front (some path) v w source assigns unrelated
    rw [(h.compile_eq ..).1, (h.compile_eq ..).1, (h.instantiate_eq ..).1, (h.instantiate_eq ..).1]
    show ((h.library.load tree' name).1 >>= _) >>= _ = ((h.library.load tree name).1 >>= _) >>= _
    -- a file that the host has kept is read again from neither tree
    cases kept : h.library.cached name with
    | some g => rw [h.library.load_of_cached tree name g kept, h.library.load_of_cached tree' name g kept]
    | none =>
      rw [h.library.load_of_found tree name path kept found, h.library.load_of_found tree' name path kept found',
        FileTree.parse, FileTree.parse, text, text', short, long]
      cases failure with
      | some e => rfl
      | none =>
        have refers := ProtocolFile.refers_of_unrelated source (some path) f.tail v.text unrelated short
        refine (ProtocolFile.instantiate_bind_tail leads refers instantiation _ fun p hp hr => ?_).symm
        exact h.compiler.compileUsed_tail v.not_handler settings hp hr

/-- The reference `$te2` fails, with the variable `ter` in front of the source and without it. -/
theorem compile_unrelated_variable_ter :
    let v : Grammar.Identifier := ⟨"ter".toList, by decide, by decide⟩
    let w := "\"a;b\" 7".toList
    let source := "term = 1; p \x7b x = $term; out $x; \x7d q \x7b out $te2; \x7d".toList
    let longer := v.text ++ " = ".toList ++ w ++ ';' :: ' ' :: source
    let tree (text : Text) := FileTree.ofFiles [(['a'], some (Text.utf8 text))]
    let program : Program := ⟨[⟨.output, 1, [.string [.literal [1]]]⟩]⟩
    (OneAssignment v w ∧ (∀ statement ∈ (Scanner.ofSource source).outline, statement.Unrelated v.text) ∧
        ∀ name ∈ settingNames, ¬ name <+: v.text) ∧
      (({} : Compiler).compileSource source ['p'] none = .ok program ∧
        ({} : Compiler).compileSource longer ['p'] none = .ok program) ∧
      ((({} : Compiler).compileSource source ['q'] none).toOption = none ∧
        ({} : Compiler).compileSource longer ['q'] none = ({} : Compiler).compileSource source ['q'] none) ∧
      (({} : Host).compile (tree longer) ['a'] ['p']).result =
        (({} : Host).compile (tree source) ['a'] ['p']).result := by
  intro v w source longer tree program
  have alone : ({} : Compiler).compileSource source ['p'] none = .ok program := by decide +kernel
  have assigns : OneAssignment v w := by
    refine ⟨by decide, [⟨.special, [' '], 1, none⟩, ⟨.string, "a;b".toList, 1, some .double⟩,
      ⟨.special, [' '], 1, none⟩, ⟨.word, ['7'], 1, none⟩], { rest := [] },
      .assignment _ { rest := " \"a;b\" 7;".toList } _ _ 1 _ ?_ ?_ ?_, rfl, ?_⟩
    all_goals decide +kernel
  have unrelated : ∀ statement ∈ (Scanner.ofSource source).outline, statement.Unrelated v.text := by decide +kernel
  have settings : ∀ name ∈ settingNames, ¬ name <+: v.text := by decide
  obtain ⟨compiled, hosted⟩ := compile_unrelated_variable v w source assigns unrelated settings
  refine ⟨⟨assigns, unrelated, settings⟩, ⟨alone, ?_⟩, ⟨by decide +kernel, compiled {} ['q'] none⟩, ?_⟩
  · rw [← alone]
    exact compiled {} ['p'] none
  · exact hosted {} (tree source) (tree longer) ['a'] "./a".toList ['p'] (by decide +kernel) (by decide +kernel)
      (by decide +kernel) (by decide +kernel)

end DeviceProtocol
