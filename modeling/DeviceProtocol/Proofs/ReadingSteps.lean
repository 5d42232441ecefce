import DeviceProtocol.Proofs.Outline
import Mathlib.Logic.Relation
set_option autoImplicit false

/-!
Reading a protocol file step by step. The readers of a file, of a body and of a handler call one another. Here the
blocks that are open are part of the state instead, and one step takes one statement, opens a block or closes one. Both
ways come to the same: the file that is read, or the failure that ends reading, with one note for each open block.
-/
namespace DeviceProtocol

open Scanner (Head Result readHandler readBody readCommand noted)

/-- The name of a block, and the line it is on. -/
structure Block where
  name : Text
  line : Int

/-- How far a file has been read. -/
structure Position where
  file : ProtocolFile
  /-- The protocol that is open, as far as it has been read. -/
  protocol : Option (Block × Protocol) := none
  /-- The handler that is open, inside of the protocol if there is one, and its commands so far. -/
  handler : Option (Block × List Token) := none
  scanner : Scanner

inductive Progress where
  | goes (q : Position)
  | ends (f : ProtocolFile)
  | stops (f : ProtocolFile) (e : Failure)

def Progress.fault (f : ProtocolFile) (s : Scanner) (cause : Cause) : Progress :=
  .stops f (.fault { cause := cause, line := some s.line })

namespace Position

def closeHandler (q : Position) (b : Block) (ts : List Token) (s : Scanner) : Position :=
  match q.protocol with
  | some (c, p) => { q with protocol := some (c, p.assign b.name b.line ts), handler := none, scanner := s }
  | none =>
    { q with
      file := { q.file with globals := q.file.globals.assign b.name b.line ts }, handler := none, scanner := s }

def stepHandler (q : Position) (b : Block) (ts : List Token) : Progress :=
  match q.scanner.readHead false with
  | .error e _ => .stops q.file e
  | .ok .endOfFile s | .ok .close s => .goes (q.closeHandler b ts s)
  | .ok (.named name line after) s =>
    if after = some '=' then .fault q.file s .assignmentInHandler
    else if after = some '\x7b' then
      .fault q.file s (if isHandlerName name then .nestedHandler name else .nestedDefinition name)
    else if isHandlerName name then .fault q.file s (.handlerBodyExpected name)
    else match readCommand q.file.protocols name line after s with
      | .error e _ => .stops q.file e
      | .ok us s' => .goes { q with handler := some (b, ts ++ us), scanner := s' }

def stepBody (q : Position) (b : Block) (p : Protocol) : Progress :=
  match q.scanner.readHead false with
  | .error e _ => .stops q.file e
  | .ok .endOfFile s | .ok .close s =>
    .goes { file := { q.file with protocols := q.file.protocols ++ [p] }, scanner := s }
  | .ok (.named name line after) s =>
    if after = some '=' then
      if isHandlerName name then .fault q.file s (.variableNamedAsHandler name)
      else match p.readAssignment name line s with
        | (_, .error e _) => .stops q.file e
        | (p', .ok () s') => .goes { q with protocol := some (b, p'), scanner := s' }
    else if after = some '\x7b' then
      if isHandlerName name then .goes { q with handler := some (⟨name, line⟩, []), scanner := s }
      else .fault q.file s (.nestedDefinition name)
    else if isHandlerName name then .fault q.file s (.handlerBodyExpected name)
    else match readCommand q.file.protocols name line after s with
      | .error e _ => .stops q.file e
      | .ok ts s' => .goes { q with protocol := some (b, p.addCommands ts), scanner := s' }

def stepFile (q : Position) : Progress :=
  match q.scanner.readHead true with
  | .error e _ => .stops q.file e
  | .ok .endOfFile _ => .ends { q.file with valid := true }
  | .ok .close s => .fault q.file s .unmatchedClose
  | .ok (.named name line after) s =>
    if after = some '=' then
      if isHandlerName name then .fault q.file s (.variableNamedAsHandler name)
      else match q.file.globals.readAssignment name line s with
        | (p, .error e _) => .stops { q.file with globals := p } e
        | (p, .ok () s') => .goes { q with file := { q.file with globals := p }, scanner := s' }
    else if isHandlerName name then
      if after = some '\x7b' then .goes { q with handler := some (⟨name, line⟩, []), scanner := s }
      else .fault q.file s (.handlerBodyExpected name)
    else if after = some '\x7b' || after = some '(' then
      match ProtocolFile.readOpening name after s with
      | .error e _ => .stops q.file e
      | .ok parameters s' =>
        match q.file.protocols.find? fun p => p.name == name with
        | some p =>
          .stops q.file (.fault
            { cause := .redefinition name, line := some s'.line, notes := [(some p.line, .firstDefinition name)] })
        | none =>
          .goes { q with protocol := some (⟨name, line⟩, q.file.template name line parameters), scanner := s' }
    else .fault q.file s (.definitionExpected after name)

def step (q : Position) : Progress :=
  match q.handler, q.protocol with
  | some (b, ts), _ => q.stepHandler b ts
  | none, some (b, p) => q.stepBody b p
  | none, none => q.stepFile

/-- Reading comes from the one position to the other. -/
def Reaches : Position → Position → Prop := Relation.ReflTransGen fun q q' => q.step = .goes q'

/-- One note for each open block, the innermost first. -/
def notes (q : Position) : List (Int × Note) :=
  (q.handler.toList.map fun (b, _) => (b.line, .inHandler b.name)) ++
    q.protocol.toList.map fun (b, _) => (b.line, .inProtocol b.name)

end Position

def Failure.withNotes (notes : List (Int × Note)) (e : Failure) : Failure :=
  e.mapFault fun f => { f with notes := f.notes ++ notes.map fun note => (some note.1, note.2) }

theorem Failure.withNotes_nil (e : Failure) : e.withNotes [] = e := by
  cases e with
  | fault f => simp [withNotes, mapFault]
  | crash => rfl

theorem Failure.withNotes_withNotes (e : Failure) (inner outer : List (Int × Note)) :
    (e.withNotes inner).withNotes outer = e.withNotes (inner ++ outer) := by
  cases e with
  | fault f => simp [withNotes, mapFault]
  | crash => rfl

theorem noted_error {α : Type} (line : Int) (note : Note) (e : Failure) (s : Scanner) :
    noted line note (.error e s : Result α) = .error (e.withNotes [(line, note)]) s := by
  cases e <;> rfl

namespace Position

variable (f : ProtocolFile)

def HandlerRun (protocol : Option (Block × Protocol)) (b : Block) (ts : List Token) (s : Scanner) :
    Result (List Token) → Prop
  | .ok us s' =>
    Reaches ⟨f, protocol, some (b, ts), s⟩ (closeHandler ⟨f, protocol, some (b, ts), s⟩ b (ts ++ us) s')
  | .error e _ => ∃ us s₁, Reaches ⟨f, protocol, some (b, ts), s⟩ ⟨f, protocol, some (b, us), s₁⟩ ∧
      step ⟨f, protocol, some (b, us), s₁⟩ = .stops f e

theorem handlerRun (protocol : Option (Block × Protocol)) (b : Block) (ts : List Token) (s : Scanner) :
    HandlerRun f protocol b ts s (readHandler f.protocols s) := by
  have here (s : Scanner) (ts : List Token) : step ⟨f, protocol, some (b, ts), s⟩ =
      stepHandler ⟨f, protocol, some (b, ts), s⟩ b ts := rfl
  fun_induction readHandler f.protocols s generalizing ts with
  | case1 s e s₁ head => exact ⟨ts, s, .refl, by simp only [here, stepHandler, head]⟩
  | case2 s s₁ head | case3 s s₁ head =>
    refine .single ?_
    simp only [here, stepHandler, head, List.append_nil]
  | case4 s name line s₁ head => exact ⟨ts, s, .refl, by simp [here, stepHandler, head, Progress.fault]⟩
  | case5 s name line s₁ handler head => exact ⟨ts, s, .refl, by simp [here, stepHandler, head, handler, Progress.fault]⟩
  | case6 s name line s₁ plain head => exact ⟨ts, s, .refl, by simp [here, stepHandler, head, plain, Progress.fault]⟩
  | case7 s name line after s₁ head assigns opens handler =>
    exact ⟨ts, s, .refl, by simp [here, stepHandler, head, assigns, opens, handler, Progress.fault]⟩
  | case8 s name line after s₁ head assigns opens plain e s₂ command =>
    exact ⟨ts, s, .refl, by simp [here, stepHandler, head, assigns, opens, plain, command]⟩
  | case9 s name line after s₁ head assigns opens plain us s₂ command e s₃ rest ih =>
    have next : step ⟨f, protocol, some (b, ts), s⟩ = .goes ⟨f, protocol, some (b, ts ++ us), s₂⟩ := by
      simp [here, stepHandler, head, assigns, opens, plain, command]
    have more := ih (ts ++ us)
    rw [rest] at more
    obtain ⟨vs, s₄, run, stops⟩ := more
    exact ⟨vs, s₄, .head next run, stops⟩
  | case10 s name line after s₁ head assigns opens plain us s₂ command vs s₃ rest ih =>
    have next : step ⟨f, protocol, some (b, ts), s⟩ = .goes ⟨f, protocol, some (b, ts ++ us), s₂⟩ := by
      simp [here, stepHandler, head, assigns, opens, plain, command]
    have more := ih (ts ++ us)
    rw [rest] at more
    refine .head next ?_
    rw [← List.append_assoc]
    exact more

theorem reaches_closeHandler (protocol : Option (Block × Protocol)) (b : Block) (ts : List Token) (s s₁ s' : Scanner)
    (next : step ⟨f, protocol, none, s⟩ = .goes ⟨f, protocol, some (b, []), s₁⟩)
    (h : noted b.line (.inHandler b.name) (readHandler f.protocols s₁) = .ok ts s') :
    Reaches ⟨f, protocol, none, s⟩ (closeHandler ⟨f, protocol, none, s⟩ b ts s') := by
  have run := handlerRun f protocol b [] s₁
  rw [Scanner.noted_eq_ok _ _ _ _ _ h] at run
  refine .head next ?_
  cases protocol <;> exact run

theorem reaches_stops_handler (protocol : Option (Block × Protocol)) (b : Block) (e : Failure) (s s₁ s' : Scanner)
    (next : step ⟨f, protocol, none, s⟩ = .goes ⟨f, protocol, some (b, []), s₁⟩)
    (h : noted b.line (.inHandler b.name) (readHandler f.protocols s₁) = .error e s') :
    ∃ us s₂ e', Reaches ⟨f, protocol, none, s⟩ ⟨f, protocol, some (b, us), s₂⟩ ∧
      step ⟨f, protocol, some (b, us), s₂⟩ = .stops f e' ∧ e = e'.withNotes [(b.line, .inHandler b.name)] := by
  have run := handlerRun f protocol b [] s₁
  cases read : readHandler f.protocols s₁ with
  | ok ts s₃ =>
    rw [read] at h
    cases h
  | error e' s₃ =>
    rw [read, noted_error] at h
    cases h
    rw [read] at run
    obtain ⟨us, s₂, rest, stops⟩ := run
    exact ⟨us, s₂, e', .head next rest, stops, rfl⟩

def BodyRun (b : Block) (p : Protocol) (s : Scanner) : Result Protocol → Prop
  | .ok p' s' => Reaches ⟨f, some (b, p), none, s⟩ ⟨{ f with protocols := f.protocols ++ [p'] }, none, none, s'⟩
  | .error e _ => ∃ q e', Reaches ⟨f, some (b, p), none, s⟩ q ∧ q.step = .stops f e' ∧
      e.withNotes [(b.line, .inProtocol b.name)] = e'.withNotes q.notes

theorem BodyRun.head {f : ProtocolFile} {b : Block} {p p' : Protocol} {s s' : Scanner} {r : Result Protocol}
    (run : Reaches ⟨f, some (b, p), none, s⟩ ⟨f, some (b, p'), none, s'⟩) (h : BodyRun f b p' s' r) :
    BodyRun f b p s r := by
  cases r with
  | ok p'' s'' => exact run.trans h
  | error e s'' =>
    obtain ⟨q, e', rest, stops⟩ := h
    exact ⟨q, e', run.trans rest, stops⟩

theorem bodyRun (b : Block) (p : Protocol) (s : Scanner) : BodyRun f b p s (readBody f.protocols p s) := by
  have here (s : Scanner) (p : Protocol) : step ⟨f, some (b, p), none, s⟩ = stepBody ⟨f, some (b, p), none, s⟩ b p := rfl
  have stop (s s' : Scanner) (p : Protocol) (e : Failure) (stops : stepBody ⟨f, some (b, p), none, s⟩ b p = .stops f e) :
      BodyRun f b p s (.error e s') := ⟨⟨f, some (b, p), none, s⟩, e, .refl, stops, rfl⟩
  fun_induction readBody f.protocols p s with
  | case1 p s e s₁ head => exact stop s s₁ p e (by simp only [stepBody, head])
  | case2 p s s₁ head | case3 p s s₁ head =>
    refine .single ?_
    simp only [here, stepBody, head]
  | case4 p s name line s₁ handler head => exact stop s s₁ p _ (by simp [stepBody, head, handler, Progress.fault])
  | case5 p s name line s₁ plain p' e s₂ assignment head =>
    exact stop s s₂ p e (by simp [stepBody, head, plain, assignment])
  | case6 p s name line s₁ plain p' s₂ assignment head ih =>
    exact ih.head (.single (by simp [here, stepBody, head, plain, assignment]))
  | case7 p s name line s₁ handler e s₂ commands head _ =>
    have next : step ⟨f, some (b, p), none, s⟩ = .goes ⟨f, some (b, p), some (⟨name, line⟩, []), s₁⟩ := by
      simp [here, stepBody, head, handler]
    obtain ⟨us, s₃, e', run, stops, rfl⟩ := reaches_stops_handler f _ ⟨name, line⟩ e s s₁ s₂ next commands
    exact ⟨_, e', run, stops, Failure.withNotes_withNotes e' _ _⟩
  | case8 p s name line s₁ handler ts s₂ commands head _ ih =>
    have next : step ⟨f, some (b, p), none, s⟩ = .goes ⟨f, some (b, p), some (⟨name, line⟩, []), s₁⟩ := by
      simp [here, stepBody, head, handler]
    exact ih.head (reaches_closeHandler f _ ⟨name, line⟩ ts s s₁ s₂ next commands)
  | case9 p s name line s₁ plain head => exact stop s s₁ p _ (by simp [stepBody, head, plain, Progress.fault])
  | case10 p s name line after s₁ head assigns opens handler =>
    exact stop s s₁ p _ (by simp [stepBody, head, assigns, opens, handler, Progress.fault])
  | case11 p s name line after s₁ head assigns opens plain e s₂ command =>
    exact stop s s₂ p e (by simp [stepBody, head, assigns, opens, plain, command])
  | case12 p s name line after s₁ head assigns opens plain ts s₂ command ih =>
    exact ih.head (.single (by simp [here, stepBody, head, assigns, opens, plain, command]))

/-- What reading has come to, if it ends here: the file, or a failure with the notes of the open blocks. -/
def outcome? (q : Position) : Option (ProtocolFile × Option Failure) :=
  match q.step with
  | .goes _ => none
  | .ends g => some (g, none)
  | .stops g e => some (g, some (e.withNotes q.notes))

variable {q q' : Position} {g : ProtocolFile} {e : Failure}

theorem outcome?_of_goes (h : q.step = .goes q') : q.outcome? = none := by rw [outcome?, h]

theorem outcome?_of_ends (h : q.step = .ends g) : q.outcome? = some (g, none) := by rw [outcome?, h]

theorem outcome?_of_stops (h : q.step = .stops g e) : q.outcome? = some (g, some (e.withNotes q.notes)) := by
  rw [outcome?, h]

theorem outcome?_eq_failure (h : q.outcome? = some (g, some e)) :
    ∃ e', q.step = .stops g e' ∧ e = e'.withNotes q.notes := by
  rw [outcome?] at h
  split at h
  · cases h
  · cases h
  · next e' stops =>
    cases h
    exact ⟨e', stops, rfl⟩

/-- What reading from a position on comes to in the end. -/
def Yields (q : Position) (r : ProtocolFile × Option Failure) : Prop := ∃ q', Reaches q q' ∧ q'.outcome? = some r

theorem Yields.head {r : ProtocolFile × Option Failure} (run : Reaches q q') (h : Yields q' r) : Yields q r := by
  obtain ⟨q'', rest, outcome⟩ := h
  exact ⟨q'', run.trans rest, outcome⟩

theorem Yields.unique {r r' : ProtocolFile × Option Failure} (h : Yields q r) (h' : Yields q r') : r = r' := by
  obtain ⟨q₁, run, outcome⟩ := h
  obtain ⟨q₂, run', outcome'⟩ := h'
  induction run using Relation.ReflTransGen.head_induction_on with
  | refl =>
    rcases Relation.ReflTransGen.cases_head run' with rfl | ⟨q₃, next, -⟩
    · exact Option.some.inj (outcome.symm.trans outcome')
    · cases (outcome?_of_goes next).symm.trans outcome
  | head next _ ih =>
    rcases Relation.ReflTransGen.cases_head run' with rfl | ⟨q₃, next', rest⟩
    · cases (outcome?_of_goes next).symm.trans outcome'
    · cases next.symm.trans next'
      exact ih rest

theorem reaches_closeProtocol (name : Text) (line : Int) (parameters : List Text) (p : Protocol) (s s₁ s' : Scanner)
    (fresh : (f.protocols.find? fun p => p.name == name) = none)
    (next : step ⟨f, none, none, s⟩ = .goes ⟨f, some (⟨name, line⟩, f.template name line parameters), none, s₁⟩)
    (h : f.readDefinition name line parameters s₁ = .ok p s') :
    Reaches ⟨f, none, none, s⟩ ⟨{ f with protocols := f.protocols ++ [p] }, none, none, s'⟩ := by
  have run := bodyRun f ⟨name, line⟩ (f.template name line parameters) s₁
  rw [ProtocolFile.readDefinition, fresh] at h
  rw [ProtocolFile.template, Scanner.noted_eq_ok _ _ _ _ _ h] at run
  exact .head next run

theorem yields_stops_protocol (name : Text) (line : Int) (parameters : List Text) (e : Failure) (s s₁ s' : Scanner)
    (fresh : (f.protocols.find? fun p => p.name == name) = none)
    (next : step ⟨f, none, none, s⟩ = .goes ⟨f, some (⟨name, line⟩, f.template name line parameters), none, s₁⟩)
    (h : f.readDefinition name line parameters s₁ = .error e s') : Yields ⟨f, none, none, s⟩ (f, some e) := by
  have run := bodyRun f ⟨name, line⟩ (f.template name line parameters) s₁
  rw [ProtocolFile.readDefinition, fresh] at h
  cases body : readBody f.protocols (f.template name line parameters) s₁ with
  | ok p s₂ =>
    rw [ProtocolFile.template] at body
    rw [body] at h
    cases h
  | error e₁ s₂ =>
    rw [body] at run
    rw [ProtocolFile.template] at body
    rw [body, noted_error] at h
    cases h
    obtain ⟨q, e', rest, stops, same⟩ := run
    rw [same]
    exact ⟨q, .head next rest, outcome?_of_stops stops⟩

theorem yields_readStatements (s : Scanner) : Yields ⟨f, none, none, s⟩ (f.readStatements s) := by
  have here (f : ProtocolFile) (s : Scanner) : step ⟨f, none, none, s⟩ = stepFile ⟨f, none, none, s⟩ := rfl
  have stop (f g : ProtocolFile) (s : Scanner) (e : Failure) (stops : stepFile ⟨f, none, none, s⟩ = .stops g e) :
      Yields ⟨f, none, none, s⟩ (g, some e) := by
    have outcome := outcome?_of_stops ((here f s).trans stops)
    rw [show notes ⟨f, none, none, s⟩ = [] from rfl, e.withNotes_nil] at outcome
    exact ⟨_, .refl, outcome⟩
  -- a block takes many steps, which its own lemmas run through up to the position behind it
  fun_induction ProtocolFile.readStatements f s with
  | case1 f s e s₁ head => exact stop f f s e (by simp only [stepFile, head])
  | case2 f s s₁ head => exact ⟨_, .refl, outcome?_of_ends (by simp only [here, stepFile, head])⟩
  | case3 f s s₁ head => exact stop f f s _ (by simp only [stepFile, head]; rfl)
  | case4 f s name line s₁ handler head => exact stop f f s _ (by simp [stepFile, head, handler, Progress.fault])
  | case5 f s name line s₁ plain p e s₂ assignment head => exact stop f _ s e (by simp [stepFile, head, plain, assignment])
  | case6 f s name line s₁ plain p s₂ assignment head ih =>
    exact ih.head (.single (by simp [here, stepFile, head, plain, assignment]))
  | case7 f s name line s₁ handler e s₂ commands head _ =>
    have next : step ⟨f, none, none, s⟩ = .goes ⟨f, none, some (⟨name, line⟩, []), s₁⟩ := by
      simp [here, stepFile, head, handler]
    obtain ⟨us, s₃, e', run, stops, rfl⟩ := reaches_stops_handler f none ⟨name, line⟩ e s s₁ s₂ next commands
    exact ⟨_, run, outcome?_of_stops stops⟩
  | case8 f s name line s₁ handler ts s₂ commands head _ ih =>
    have next : step ⟨f, none, none, s⟩ = .goes ⟨f, none, some (⟨name, line⟩, []), s₁⟩ := by
      simp [here, stepFile, head, handler]
    exact ih.head (reaches_closeHandler f none ⟨name, line⟩ ts s s₁ s₂ next commands)
  | case9 f s name line after s₁ head assigns handler opens =>
    exact stop f f s _ (by simp [stepFile, head, assigns, handler, opens, Progress.fault])
  | case10 f s name line after s₁ head assigns plain opens e s₂ opening =>
    exact stop f f s e (by simp only [stepFile, head, assigns, plain, opens, opening, if_true, if_false, Bool.false_eq_true])
  | case11 f s name line after s₁ head assigns plain opens parameters s₂ opening e s₃ definition =>
    cases found : f.protocols.find? fun p => p.name == name with
    | some p =>
      rw [ProtocolFile.readDefinition, found] at definition
      cases definition
      refine stop f f s _ ?_
      simp only [stepFile, head, assigns, plain, opens, opening, found, if_true, if_false, Bool.false_eq_true]
      rfl
    | none =>
      refine yields_stops_protocol f name line parameters e s s₂ s₃ found ?_ definition
      simp only [here, stepFile, head, assigns, plain, opens, opening, found, if_true, if_false, Bool.false_eq_true]
  | case12 f s name line after s₁ head assigns plain opens parameters s₂ opening p s₃ definition ih =>
    cases found : f.protocols.find? fun p => p.name == name with
    | some p =>
      rw [ProtocolFile.readDefinition, found] at definition
      cases definition
    | none =>
      refine ih.head (reaches_closeProtocol f name line parameters p s s₂ s₃ found ?_ definition)
      simp only [here, stepFile, head, assigns, plain, opens, opening, found, if_true, if_false, Bool.false_eq_true]
  | case13 f s name line after s₁ head assigns plain opens =>
    exact stop f f s _ (by simp only [stepFile, head, assigns, plain, opens, if_false, Bool.false_eq_true]; rfl)

theorem yields_iff (s : Scanner) (r : ProtocolFile × Option Failure) :
    Yields ⟨f, none, none, s⟩ r ↔ f.readStatements s = r := by
  constructor
  · exact (yields_readStatements f s).unique
  · rintro rfl
    exact yields_readStatements f s

end Position
end DeviceProtocol
