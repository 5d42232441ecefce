import DeviceProtocol.Proofs.FaultLines
import DeviceProtocol.Proofs.NumberReading
import DeviceProtocol.Proofs.ReadingSteps
set_option autoImplicit false

namespace DeviceProtocol

def Faults {α : Type} (P : Fault → Prop) (r : Except Failure α) : Prop := ∀ f, r = .error (.fault f) → P f

section

variable {α β : Type} {P : Fault → Prop}

theorem faults_ok (a : α) : Faults P (.ok a : Except Failure α) := by
  rintro f ⟨⟩

theorem Traced.faults_bind {x : Traced α} {g : α → Traced β} (hx : Faults P x.result)
    (hg : ∀ a, x.result = .ok a → Faults P (g a).result) : Faults P (x >>= g).result := by
  rw [Traced.result_bind]
  cases h : x.result with
  | ok a => exact hg a h
  | error e =>
    rintro f ⟨⟩
    exact hx f h

end

namespace Protocol

/-- The fault is one of this token, in the file of the protocol. -/
def FaultAt (p : Protocol) (t : Token) (f : Fault) : Prop :=
  ∃ cause, f = { cause := cause, line := some t.line, file := p.file }

theorem parameterIndex_faults (p : Protocol) (name : Text) (P : Fault → Prop) : Faults P (p.parameterIndex name) := by
  unfold parameterIndex
  split
  · split
    · split
      · exact faults_ok _
      · rintro f ⟨⟩
    · exact faults_ok _
  · exact faults_ok _

theorem resolve_faults (p : Protocol) (t : Token) : Faults (p.FaultAt t) (p.resolve t).result := by
  have fault (cause : Cause) : Faults (p.FaultAt t) (Traced.fault cause t.line p.file : Traced (List Token)).result := by
    rintro f ⟨⟩
    exact ⟨cause, rfl⟩
  refine Traced.faults_bind (p.parameterIndex_faults t.text _) fun i _ => ?_
  cases i with
  | some i =>
    dsimp only
    split
    · rintro f ⟨⟩
    · split
      · exact fault _
      · split
        · exact faults_ok _
        · exact faults_ok _
  | none =>
    rw [Traced.result_bind, consult_result]
    cases p.lookup t.text with
    | none => exact fault _
    | some b => exact faults_ok _

theorem settle_faults (p : Protocol) (ts : List Token) :
    Faults (fun f => ∃ t ∈ ts, p.FaultAt t f) (p.settle ts).result := by
  have settled (front us : List Token) (sub : us ⊆ ts) :
      Faults (fun f => ∃ t ∈ ts, p.FaultAt t f) (p.settleAfter front us).result := by
    induction us generalizing front with
    | nil => exact faults_ok _
    | cons t us ih =>
      obtain ⟨mem, rest⟩ := List.cons_subset.mp sub
      rw [settleAfter]
      split
      · refine Traced.faults_bind (p.parameterIndex_faults t.text _) fun i _ => ?_
        cases i with
        | some i => exact ih _ rest
        | none =>
          -- the only step that can be at fault
          refine Traced.faults_bind (fun f failed => ?_) fun value _ => ih _ rest
          exact ⟨t, mem, p.resolve_faults t f failed⟩
      · split
        · exact ih _ rest
        · exact ih _ rest
  exact Traced.faults_bind (settled [] ts (List.Subset.refl ts)) fun _ _ => faults_ok _

theorem assign_file (p : Protocol) (name : Text) (line : Int) (value : List Token) :
    (p.assign name line value).file = p.file := by
  simp only [assign, declare]
  split <;> rfl

theorem assign_line (p : Protocol) (name : Text) (line : Int) (value : List Token) :
    (p.assign name line value).line = p.line := by
  simp only [assign, declare]
  split <;> rfl

variable {p q : Protocol} {name : Text} {line : Int} {s s' : Scanner} {f : Fault}

theorem readAssignment_onward (h : p.readAssignment name line s = (q, .ok () s')) :
    s.Onward s' ∧ q.file = p.file ∧ q.line = p.line := by
  rw [readAssignment] at h
  dsimp only at h
  split at h
  · cases h
  · cases h
  · next ts s₁ _ read =>
    cases h
    exact ⟨(s.readRawValue_advances.1.of_ok read).1, assign_file _ name line ts, assign_line _ name line ts⟩

theorem readAssignment_fault (h : p.readAssignment name line s = (q, .error (.fault f) s')) :
    ∃ cause reached file, s.line ≤ reached ∧ reached ≤ s.lastLine ∧ (file = none ∨ file = p.file) ∧
      f = { cause := cause, line := some reached, file := file, notes := [(some line, .inAssignment name)] } := by
  have value := p.settle_faults s.readRawValue.1
  obtain ⟨advances, tokens⟩ := s.readRawValue_advances
  rw [readAssignment] at h
  dsimp only at h
  split at h
  · next e failed =>
    cases e with
    | fault g =>
      cases h
      obtain ⟨t, mem, cause, rfl⟩ := value g failed
      obtain ⟨first, last⟩ := tokens t mem
      exact ⟨cause, t.line, p.file, first, last, .inr rfl, rfl⟩
    | crash => cases h
  · next e s₁ _ failed =>
    obtain ⟨onward, ⟨cause, rfl⟩ | rfl⟩ := advances.of_error failed
    · cases h
      exact ⟨cause, s'.line, none, onward.line, onward.line_le, .inl rfl, rfl⟩
    · cases h
  · cases h

end Protocol

open Scanner (readCommand readHead_advances readHead_onward)

/-- A note on the command, the assignment or the definition that a fault is about. -/
def Note.Innermost : Note → Prop
  | .afterCommand _ | .inAssignment _ | .firstDefinition _ => True
  | _ => False

/-- Lines of a source, counted from one, that never increase. -/
structure Falling (lines : List Int) : Prop where
  pairwise : lines.Pairwise (· ≥ ·)
  positive : ∀ n ∈ lines, 1 ≤ n

namespace Falling

variable {m n : Int} {lines : List Int}

theorem cons (h : Falling (m :: lines)) (le : m ≤ n) : Falling (n :: m :: lines) where
  pairwise := by
    refine List.pairwise_cons.mpr ⟨fun k mem => ?_, h.pairwise⟩
    rcases List.mem_cons.mp mem with rfl | mem
    · exact le
    · exact Int.le_trans ((List.pairwise_cons.mp h.pairwise).1 k mem) le
  positive := List.forall_mem_cons.mpr ⟨Int.le_trans (h.positive m (List.mem_cons_self ..)) le, h.positive⟩

theorem drop (h : Falling (n :: m :: lines)) : Falling (n :: lines) where
  pairwise := h.pairwise.sublist (.cons_cons n (.cons m (.refl _)))
  positive := fun k mem => h.positive k (by simp only [List.mem_cons] at mem ⊢; tauto)

theorem tail (h : Falling (n :: lines)) : Falling lines :=
  ⟨(List.pairwise_cons.mp h.pairwise).2, fun k mem => h.positive k (List.mem_cons_of_mem n mem)⟩

theorem le_first (h : Falling (n :: lines)) (k : Int) (mem : k ∈ n :: lines) : k ≤ n := by
  rcases List.mem_cons.mp mem with rfl | mem
  · exact Int.le_refl k
  · exact (List.pairwise_cons.mp h.pairwise).1 k mem

theorem one_le (h : Falling (n :: lines)) : 1 ≤ n := h.positive n (List.mem_cons_self ..)

theorem raise (h : Falling (m :: lines)) (le : m ≤ n) : Falling (n :: lines) := (h.cons le).drop

end Falling

namespace Position

variable {file : Option Text} {last : Int} {q : Position}

/-- Reading a source that ends on line `last` stands in order: what is open starts on earlier lines, the outer block
before the inner one, and all of it is in the file. -/
structure Ordered (file : Option Text) (last : Int) (q : Position) : Prop where
  lastLine : q.scanner.lastLine = last
  falling : Falling (q.scanner.line :: q.notes.map Prod.fst)
  globals : q.file.globals.file = file
  defined : ∀ p ∈ q.file.protocols, 1 ≤ p.line ∧ p.line ≤ q.scanner.line
  opened : ∀ b p, q.protocol = some (b, p) → p.file = file ∧ p.line = b.line

/-- A fault that a step may raise, before the notes of the open blocks are added. It has one note at most, which is an
innermost one. -/
def Raised (file : Option Text) (last : Int) (q : Position) (f : Fault) : Prop :=
  (f.file = none ∨ f.file = file) ∧ ∃ (line : Int) (inner : Option (Int × Note)), f.line = some line ∧ line ≤ last ∧
    f.notes = inner.toList.map (fun note => (some note.1, note.2)) ∧ (∀ note ∈ inner, note.2.Innermost) ∧
    Falling (line :: (inner.toList ++ q.notes).map Prod.fst)

/-- What a step may come to. -/
def Sound (file : Option Text) (last : Int) (q : Position) : Progress → Prop
  | .goes q' => q'.Ordered file last
  | .ends _ => True
  | .stops _ e => ∀ f, e = .fault f → q.Raised file last f

section

variable {s : Scanner} (h : q.Ordered file last) (onward : q.scanner.Onward s)
include h onward

theorem Ordered.raised (cause : Cause) : q.Raised file last { cause := cause, line := some s.line } :=
  ⟨.inl rfl, s.line, none, rfl, h.lastLine ▸ onward.line_le, rfl, by simp, h.falling.raise onward.line⟩

theorem Ordered.sound_fault (g : ProtocolFile) (cause : Cause) : Sound file last q (.fault g s cause) := by
  rintro f ⟨⟩
  exact h.raised onward cause

end

theorem Ordered.raised_noted (h : q.Ordered file last) {n line : Int} {note : Note} {place : Option Text} (cause : Cause)
    (start : q.scanner.line ≤ n) (between : n ≤ line) (within : line ≤ last) (innermost : note.Innermost)
    (named : place = none ∨ place = file) :
    q.Raised file last { cause := cause, line := some line, file := place, notes := [(some n, note)] } := by
  refine ⟨named, line, some (n, note), rfl, within, rfl, ?_, (h.falling.raise start).cons between⟩
  rintro _ ⟨⟩
  exact innermost

theorem Ordered.onward (h : q.Ordered file last) {s : Scanner} (onward : q.scanner.Onward s) :
    Ordered file last { q with scanner := s } where
  lastLine := onward.last.trans h.lastLine
  falling := h.falling.raise onward.line
  globals := h.globals
  defined := fun p mem => ⟨(h.defined p mem).1, Int.le_trans (h.defined p mem).2 onward.line⟩
  opened := h.opened

section

variable {eofAllowed : Bool} {name : Text} {line : Int} {after : Option Char} {s s' : Scanner} {e : Failure}

theorem Ordered.sound_head (h : q.Ordered file last) (failed : q.scanner.readHead eofAllowed = .error e s)
    (g : ProtocolFile) : Sound file last q (.stops g e) := by
  obtain ⟨onward, ⟨cause, rfl⟩ | rfl⟩ := (readHead_advances eofAllowed q.scanner).of_error failed
  · exact h.sound_fault onward g cause
  · rintro f ⟨⟩

variable (h : q.Ordered file last) (head : q.scanner.readHead eofAllowed = .ok (.named name line after) s)
include h head

theorem Ordered.sound_command {protocols : List Protocol} (failed : readCommand protocols name line after s = .error e s')
    (g : ProtocolFile) : Sound file last q (.stops g e) := by
  obtain ⟨start, first, behind, newline⟩ := (readHead_advances eofAllowed q.scanner).of_ok head
  -- what is put back behind the name ends no line, so reading does not go back before it
  obtain ⟨onward, ⟨cause, rfl⟩ | rfl⟩ := Scanner.readCommand_fault newline failed
  rotate_left
  · rintro f ⟨⟩
  rintro f ⟨⟩
  have within := h.lastLine ▸ (start.trans onward).line_le
  exact h.raised_noted cause first (Int.le_trans behind onward.line) within trivial (.inl rfl)

theorem Ordered.sound_assignment {p p' : Protocol} (place : p.file = file)
    (failed : p.readAssignment name line s = (p', .error e s')) (g : ProtocolFile) : Sound file last q (.stops g e) := by
  obtain ⟨start, first, behind, -⟩ := (readHead_advances eofAllowed q.scanner).of_ok head
  rintro f rfl
  obtain ⟨cause, reached, named, above, below, known, rfl⟩ := Protocol.readAssignment_fault failed
  have within : reached ≤ last := by
    rw [start.last, h.lastLine] at below
    exact below
  exact h.raised_noted cause first (Int.le_trans behind above) within trivial (place ▸ known)

theorem Ordered.falling_open : Falling (s.line :: line :: q.notes.map Prod.fst) := by
  obtain ⟨-, first, behind, -⟩ := (readHead_advances eofAllowed q.scanner).of_ok head
  exact (h.falling.raise first).cons behind

end

section

variable {f : ProtocolFile} {b : Block} {protocol : Option (Block × Protocol)} {s s' : Scanner}

theorem Ordered.closeHandler {ts : List Token} (h : Ordered file last ⟨f, protocol, some (b, ts), s⟩)
    (onward : s.Onward s') : Ordered file last (closeHandler ⟨f, protocol, some (b, ts), s⟩ b ts s') := by
  obtain ⟨lastLine, falling, globals, defined, opened⟩ := h.onward onward
  cases protocol with
  | none => exact ⟨lastLine, falling.drop, (Protocol.assign_file ..).trans globals, defined, by rintro _ _ ⟨⟩⟩
  | some inside =>
    obtain ⟨c, p⟩ := inside
    obtain ⟨place, line⟩ := opened c p rfl
    refine ⟨lastLine, falling.drop, globals, defined, ?_⟩
    rintro _ _ ⟨⟩
    exact ⟨(Protocol.assign_file ..).trans place, (Protocol.assign_line ..).trans line⟩

theorem Ordered.closeProtocol {p : Protocol} (h : Ordered file last ⟨f, some (b, p), none, s⟩) (onward : s.Onward s') :
    Ordered file last ⟨{ f with protocols := f.protocols ++ [p] }, none, none, s'⟩ := by
  obtain ⟨lastLine, falling, globals, defined, opened⟩ := h.onward onward
  refine ⟨lastLine, falling.drop, globals, fun r mem => ?_, by simp⟩
  rcases List.mem_append.mp mem with old | new
  · exact defined r old
  · obtain rfl := List.mem_singleton.mp new
    rw [(opened b r rfl).2]
    exact ⟨falling.tail.one_le, falling.le_first _ (by simp [notes])⟩

theorem Ordered.continueProtocol {p p' : Protocol} (h : Ordered file last ⟨f, some (b, p), none, s⟩)
    (onward : s.Onward s') (place : p'.file = p.file) (line : p'.line = p.line) :
    Ordered file last ⟨f, some (b, p'), none, s'⟩ := by
  obtain ⟨lastLine, falling, globals, defined, opened⟩ := h.onward onward
  refine ⟨lastLine, falling, globals, defined, ?_⟩
  rintro _ _ ⟨⟩
  exact ⟨place.trans (opened b p rfl).1, line.trans (opened b p rfl).2⟩

theorem Ordered.openHandler {eofAllowed : Bool} {name : Text} {line : Int} {after : Option Char}
    (h : Ordered file last ⟨f, protocol, none, s⟩) (head : s.readHead eofAllowed = .ok (.named name line after) s') :
    Ordered file last ⟨f, protocol, some (⟨name, line⟩, []), s'⟩ := by
  have falling := h.falling_open head
  obtain ⟨lastLine, -, globals, defined, opened⟩ := h.onward (readHead_onward head)
  exact ⟨lastLine, falling, globals, defined, opened⟩

theorem Ordered.stepHandler_sound {ts : List Token} (h : Ordered file last ⟨f, protocol, some (b, ts), s⟩) :
    Sound file last ⟨f, protocol, some (b, ts), s⟩ (stepHandler ⟨f, protocol, some (b, ts), s⟩ b ts) := by
  rw [stepHandler]
  split
  · next failed => exact h.sound_head failed f
  · next head => exact h.closeHandler (readHead_onward head)
  · next head => exact h.closeHandler (readHead_onward head)
  · next name line after s₁ head =>
    split
    · exact h.sound_fault (readHead_onward head) _ _
    · split
      · exact h.sound_fault (readHead_onward head) _ _
      · split
        · exact h.sound_fault (readHead_onward head) _ _
        · split
          · next failed => exact h.sound_command head failed f
          · next us s₂ command =>
            obtain ⟨start, -, -, newline⟩ := (readHead_advances false s).of_ok head
            obtain ⟨lastLine, falling, globals, defined, opened⟩ :=
              h.onward (start.trans (Scanner.readCommand_onward newline command))
            exact ⟨lastLine, falling, globals, defined, opened⟩

theorem Ordered.stepBody_sound {p : Protocol} (h : Ordered file last ⟨f, some (b, p), none, s⟩) :
    Sound file last ⟨f, some (b, p), none, s⟩ (stepBody ⟨f, some (b, p), none, s⟩ b p) := by
  rw [stepBody]
  split
  · next failed => exact h.sound_head failed f
  · next head => exact h.closeProtocol (readHead_onward head)
  · next head => exact h.closeProtocol (readHead_onward head)
  · next name line after s₁ head =>
    split
    · split
      · exact h.sound_fault (readHead_onward head) _ _
      · split
        · next failed => exact h.sound_assignment head (h.opened b p rfl).1 failed f
        · next p' s₂ assignment =>
          obtain ⟨rest, place, line⟩ := Protocol.readAssignment_onward assignment
          exact h.continueProtocol ((readHead_onward head).trans rest) place line
    · split
      · split
        · exact h.openHandler head
        · exact h.sound_fault (readHead_onward head) _ _
      · split
        · exact h.sound_fault (readHead_onward head) _ _
        · split
          · next failed => exact h.sound_command head failed f
          · next us s₂ command =>
            obtain ⟨start, -, -, newline⟩ := (readHead_advances false s).of_ok head
            exact h.continueProtocol (start.trans (Scanner.readCommand_onward newline command)) rfl rfl

variable {name : Text} {line : Int} {after : Option Char} {s₁ : Scanner} {parameters : List Text}

theorem Ordered.openProtocol (h : Ordered file last ⟨f, none, none, s⟩)
    (head : s.readHead true = .ok (.named name line after) s₁) (rest : s₁.Onward s') :
    Ordered file last ⟨f, some (⟨name, line⟩, f.template name line parameters), none, s'⟩ := by
  have falling := h.falling_open head
  have onward := readHead_onward head
  obtain ⟨lastLine, -, globals, defined, -⟩ := h.onward (onward.trans rest)
  refine ⟨lastLine, falling.raise rest.line, globals, defined, ?_⟩
  rintro _ _ ⟨⟩
  -- a copy to line zero would keep the line of the global settings
  have positive : line ≠ 0 := by
    have := falling.tail.one_le
    omega
  exact ⟨globals, if_neg positive⟩

theorem Ordered.sound_redefinition (h : Ordered file last ⟨f, none, none, s⟩) {p : Protocol} (mem : p ∈ f.protocols)
    (onward : s.Onward s') :
    Sound file last ⟨f, none, none, s⟩ (.stops f (.fault
      { cause := .redefinition name, line := some s'.line, notes := [(some p.line, .firstDefinition name)] })) := by
  rintro _ ⟨⟩
  obtain ⟨first, before⟩ := h.defined p mem
  -- no block is open here, so the line of the first definition is the last one
  have falling : Falling [p.line] := ⟨List.pairwise_singleton .., by simpa using first⟩
  refine ⟨.inl rfl, s'.line, some (p.line, .firstDefinition name), rfl, h.lastLine ▸ onward.line_le, rfl, ?_, ?_⟩
  · rintro _ ⟨⟩
    trivial
  · exact falling.cons (Int.le_trans before onward.line)

theorem Ordered.stepFile_sound (h : Ordered file last ⟨f, none, none, s⟩) :
    Sound file last ⟨f, none, none, s⟩ (stepFile ⟨f, none, none, s⟩) := by
  rw [stepFile]
  split
  · next failed => exact h.sound_head failed f
  · trivial
  · next head => exact h.sound_fault (readHead_onward head) _ _
  · next name line after s₁ head =>
    split
    · split
      · exact h.sound_fault (readHead_onward head) _ _
      · split
        · next failed => exact h.sound_assignment head h.globals failed _
        · next p s₂ assignment =>
          obtain ⟨rest, place, -⟩ := Protocol.readAssignment_onward assignment
          obtain ⟨lastLine, falling, globals, defined, -⟩ := h.onward ((readHead_onward head).trans rest)
          exact ⟨lastLine, falling, place.trans globals, defined, by simp⟩
    · split
      · split
        · exact h.openHandler head
        · exact h.sound_fault (readHead_onward head) _ _
      · split
        · split
          · next e s₂ failed =>
            obtain ⟨rest, ⟨cause, rfl⟩ | rfl⟩ := (Scanner.readOpening_advances name after s₁).of_error failed
            · exact h.sound_fault ((readHead_onward head).trans rest) _ _
            · rintro f ⟨⟩
          · next parameters s₂ opening =>
            have rest := ((Scanner.readOpening_advances name after s₁).of_ok opening).1
            split
            · next p found => exact h.sound_redefinition (List.mem_of_find?_eq_some found) ((readHead_onward head).trans rest)
            · exact h.openProtocol head rest
        · exact h.sound_fault (readHead_onward head) _ _

end

theorem Ordered.step_sound (h : q.Ordered file last) : Sound file last q q.step := by
  obtain ⟨f, protocol, handler, s⟩ := q
  cases handler with
  | some inside => exact h.stepHandler_sound
  | none =>
    cases protocol with
    | some inside => exact h.stepBody_sound
    | none => exact h.stepFile_sound

theorem Ordered.reaches {q' : Position} (h : q.Ordered file last) (run : Reaches q q') : q'.Ordered file last := by
  induction run with
  | refl => exact h
  | tail _ next ih =>
    have sound := ih.step_sound
    rw [next] at sound
    exact sound

theorem ordered_start (source : Text) (file : Option Text) :
    Ordered file (1 + source.count '\n') ⟨.empty file, none, none, .ofSource source⟩ where
  lastLine := rfl
  falling := ⟨List.pairwise_singleton .., by simp [notes, Scanner.ofSource]⟩
  globals := rfl
  defined := by simp [ProtocolFile.empty]
  opened := by rintro _ _ ⟨⟩

end Position

theorem ProtocolFile.read_eq_failure {source : Text} {file : Option Text} {e : Failure}
    (failed : (read source file).2 = some e) :
    ∃ e', (empty file).readStatements (.ofSource source) = ((read source file).1, some e') ∧
      e'.mapFault (·.locate none file) = e := by
  rw [read] at failed ⊢
  cases result : (empty file).readStatements (.ofSource source) with
  | mk g failure =>
    rw [result] at failed
    obtain ⟨e', rfl, located⟩ := Option.map_eq_some_iff.mp failed
    exact ⟨e', rfl, located⟩

/-- Every fault in reading a source has its place. Reading stops at a position; the fault names the file and a line of
the source, and its notes are at most one innermost note and then those of the blocks that are open at the position. All
lines are lines of the source, and from the fault outward they never increase. -/
theorem ProtocolFile.read_fault_place (source : Text) (file : Option Text) (f : Fault)
    (failed : (read source file).2 = some (.fault f)) :
    ∃ (q : Position) (e : Fault) (line : Int) (inner : Option (Int × Note)),
      Position.Reaches ⟨.empty file, none, none, .ofSource source⟩ q ∧ q.step = .stops (read source file).1 (.fault e) ∧
      f.cause = e.cause ∧ f.file = file ∧ f.line = some line ∧
      f.notes = (inner.toList ++ q.notes).map (fun note => (some note.1, note.2)) ∧
      (∀ note ∈ inner, note.2.Innermost) ∧
      (line :: (inner.toList ++ q.notes).map Prod.fst).Pairwise (· ≥ ·) ∧
      ∀ n ∈ line :: (inner.toList ++ q.notes).map Prod.fst, 1 ≤ n ∧ n ≤ 1 + source.count '\n' := by
  obtain ⟨e', result, located⟩ := read_eq_failure failed
  obtain ⟨q, run, outcome⟩ := (Position.yields_iff ..).mpr result
  obtain ⟨e, stops, rfl⟩ := Position.outcome?_eq_failure outcome
  have sound := ((Position.ordered_start source file).reaches run).step_sound
  rw [stops] at sound
  cases e with
  | fault e =>
    cases located
    obtain ⟨place, line, inner, reached, within, inside, innermost, falling⟩ := sound e rfl
    refine ⟨q, e, line, inner, run, ?_, rfl, ?_, ?_, ?_, innermost, falling.pairwise, fun n mem => ?_⟩
    · exact stops
    · rcases place with unknown | known
      · exact congrArg (·.or file) unknown
      · show e.file.or file = file
        rw [known, Option.or_self]
    · exact congrArg (·.or none) reached
    · rw [List.map_append, ← inside]
      rfl
    · exact ⟨falling.positive n mem, Int.le_trans (falling.le_first n mem) within⟩
  | crash => cases located

/-- The string of a command is not closed. The command is in a handler, and the handler in a protocol. -/
theorem ProtocolFile.read_fault_place_nested :
    let source := "# p\np\n(a) \x7b\n  @h \x7b wait 1;\n    out\n 'b;\n  \x7d\n\x7d".toList
    let file := some "f".toList
    let f : Fault := {
      cause := .unterminatedString .single "b;".toList
      line := some 7
      file := file
      notes := [(some 5, .afterCommand "out".toList), (some 4, .inHandler "@h".toList), (some 2, .inProtocol ['p'])] }
    (read source file).2 = some (.fault f) ∧
      ∃ (q : Position) (line : Int) (inner : Option (Int × Note)),
        Position.Reaches ⟨.empty file, none, none, .ofSource source⟩ q ∧ f.line = some line ∧
        f.notes = (inner.toList ++ q.notes).map (fun note => (some note.1, note.2)) ∧
        (line :: (inner.toList ++ q.notes).map Prod.fst).Pairwise (· ≥ ·) := by
  intro source file f
  have failed : (read source file).2 = some (.fault f) := by decide +kernel
  obtain ⟨q, e, line, inner, run, -, -, -, reached, notes, -, falling, -⟩ := read_fault_place source file f failed
  exact ⟨failed, q, line, inner, run, reached, notes, falling⟩

end DeviceProtocol
