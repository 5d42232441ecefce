import DeviceProtocol.ProtocolFile
import DeviceProtocol.ProtocolFile.Value
set_option autoImplicit false

/-!
Reading a protocol file:

- a file holds assignments, handlers and protocols,
- a protocol is a name, the names of its parameters in parentheses if it has any, and in braces its
  assignments, handlers and commands,
- a handler is a name that starts with an at sign, and in braces its commands,
- an assignment is a name, an equals sign, a value and a semicolon,
- a command is a name, a value and a semicolon; the name of an earlier protocol alone stands for all of
  its commands.

The last semicolon before a closing brace may be left out.
-/
namespace DeviceProtocol

namespace Scanner

/-- How the next statement starts. -/
inductive Head where
  | endOfFile
  | close
  | named (name : Text) (line : Int) (after : Option Char)
  deriving DecidableEq, Repr

def startsStatement (name : Text) : Bool := name.head?.any fun c => c == '@' || isLetter c

/-- Refuses a token. That it starts with the wrong character can only be said of a word that has a first one. -/
def refuse {α : Type} (s : Scanner) (t : Token) (cause : Cause) : Result α :=
  if t.kind = .word && t.text.isEmpty then .error (.crash .emptyWord) s else s.fail cause

def readHead (eofAllowed : Bool) (s : Scanner) : Result Head :=
  match _h : readToken .structural eofAllowed s with
  | .error e s' => .error e s'
  | .ok t s' =>
    if _hk : t.kind = .eof then .ok .endOfFile s'
    else if t.isSpecial [' ', ';'] then readHead eofAllowed s'
    else if t.isSpecial ['\x7d'] then .ok .close s'
    else if t.isSpecial ['\x7b'] then s'.fail (.nameExpected '\x7b')
    else if t.isSpecial ['='] then s'.fail (.nameExpected '=')
    else if t.kind = .word && startsStatement t.text then
      .ok (.named t.text t.line s'.readNonblank.1) s'.readNonblank.2
    else s'.refuse t (.unexpectedToken t.source)
termination_by s.rest.length
decreasing_by exact readToken_length .structural eofAllowed s s' t _h _hk

@[simp] theorem refuse_ne_ok {α : Type} (s s' : Scanner) (t : Token) (cause : Cause) (a : α) :
    s.refuse t cause ≠ .ok a s' := by
  unfold refuse
  split <;> rintro ⟨⟩

theorem readRaw_length_le (s : Scanner) :
    s.readRaw.2.rest.length + s.readRaw.1.toList.length = s.rest.length := by
  unfold readRaw
  split
  · simp
  · next h => simp [h]

theorem readNonblank_length_le (s : Scanner) :
    s.readNonblank.2.rest.length + s.readNonblank.1.toList.length ≤ s.rest.length := by
  have h := readRaw_length_le s.afterGap
  have := s.afterGap_length
  unfold readNonblank
  omega

theorem readHead_named_length (eofAllowed : Bool) (s s' : Scanner) (name : Text) (line : Int)
    (after : Option Char) (h : readHead eofAllowed s = .ok (.named name line after) s') :
    s'.rest.length + after.toList.length < s.rest.length := by
  fun_induction readHead eofAllowed s with
  | case1 => simp at h
  | case2 => simp at h
  | case3 s t s₁ ht hk _ ih =>
    have := readToken_length .structural eofAllowed s s₁ t ht hk
    have := ih h
    omega
  | case4 => simp at h
  | case5 => simp [fail] at h
  | case6 => simp [fail] at h
  | case7 s t s₁ ht hk =>
    have := readToken_length .structural eofAllowed s s₁ t ht hk
    have := s₁.readNonblank_length_le
    simp only [EStateM.Result.ok.injEq, Head.named.injEq] at h
    obtain ⟨⟨rfl, rfl, rfl⟩, rfl⟩ := h
    omega
  | case8 => simp at h

theorem readHead_length (eofAllowed : Bool) (s s' : Scanner) (head : Head)
    (h : readHead eofAllowed s = .ok head s') : s'.rest.length ≤ s.rest.length := by
  fun_induction readHead eofAllowed s with
  | case1 => simp at h
  | case2 s t s₁ ht hk =>
    have hrest := readToken_ok .structural eofAllowed s s₁ t ht
    simp only [hk, true_and, ne_eq, not_true_eq_false, false_and, or_false] at hrest
    simp only [EStateM.Result.ok.injEq] at h
    simp [← h.2, hrest.2]
  | case3 s t s₁ ht hk _ ih =>
    have := readToken_length .structural eofAllowed s s₁ t ht hk
    have := ih h
    omega
  | case4 s t s₁ ht hk =>
    have := readToken_length .structural eofAllowed s s₁ t ht hk
    simp only [EStateM.Result.ok.injEq] at h
    rw [← h.2]
    omega
  | case5 => simp [fail] at h
  | case6 => simp [fail] at h
  | case7 s t s₁ ht hk =>
    have := readToken_length .structural eofAllowed s s₁ t ht hk
    have := s₁.readNonblank_length_le
    simp only [EStateM.Result.ok.injEq] at h
    rw [← h.2]
    omega
  | case8 => simp at h

def unread? (s : Scanner) : Option Char → Scanner
  | some c => s.unread c
  | none => s

def noted {α : Type} (line : Int) (note : Note) : Result α → Result α
  | .ok a s => .ok a s
  | .error e s => .error (e.mapFault (·.addNote (some line) note)) s

theorem noted_eq_ok {α : Type} (line : Int) (note : Note) (r : Result α) (a : α) (s : Scanner)
    (h : noted line note r = .ok a s) : r = .ok a s := by
  cases r with
  | ok b s' => exact h
  | error e s' => simp [noted] at h

/-- The commands of the protocol that a name stands for, if nothing but the name is written. -/
def inlined? (protocols : List Protocol) (name : Text) (after : Option Char) :
    Option (List Token) :=
  if after = some ';' || after = some '\x7d' then
    (ProtocolFile.findIn protocols name).map fun p => p.commands.value
  else none

def readCommand (protocols : List Protocol) (name : Text) (line : Int) (after : Option Char)
    (s : Scanner) : Result (List Token) :=
  match inlined? protocols name after with
  | some ts => .ok ts (if after = some '\x7d' then s.unread '\x7d' else s)
  | none =>
    match noted line (.afterCommand name) (s.unread? after).readLazyValue with
    | .ok ts s' => .ok (⟨.word, name, line, none⟩ :: ts ++ [⟨.terminator, [';'], s'.line, none⟩]) s'
    | .error e s' => .error e s'

theorem unread?_length (s : Scanner) (c : Option Char) :
    (s.unread? c).rest.length = s.rest.length + c.toList.length := by
  cases c <;> simp [unread?, unread]

theorem readCommand_length (protocols : List Protocol) (name : Text) (line : Int)
    (after : Option Char) (s s' : Scanner) (ts : List Token)
    (h : readCommand protocols name line after s = .ok ts s') :
    s'.rest.length ≤ s.rest.length + after.toList.length := by
  unfold readCommand at h
  split at h
  · simp only [EStateM.Result.ok.injEq] at h
    rw [← h.2]
    split
    · next ha => simp [ha, unread]
    · omega
  · split at h
    · next hv =>
      have hl := readLazyValue_length _ _ _ (noted_eq_ok _ _ _ _ _ hv)
      rw [unread?_length] at hl
      simp only [EStateM.Result.ok.injEq] at h
      rwa [← h.2]
    · simp at h

def readHandler (protocols : List Protocol) (s : Scanner) : Result (List Token) :=
  match _h : readHead false s with
  | .error e s' => .error e s'
  | .ok .endOfFile s' => .ok [] s'
  | .ok .close s' => .ok [] s'
  | .ok (.named name line after) s' =>
    if after = some '=' then s'.fail .assignmentInHandler
    else if after = some '\x7b' then
      if isHandlerName name then s'.fail (.nestedHandler name)
      else s'.fail (.nestedDefinition name)
    else if isHandlerName name then s'.fail (.handlerBodyExpected name)
    else match _hc : readCommand protocols name line after s' with
      | .error e s'' => .error e s''
      | .ok command s'' =>
        match readHandler protocols s'' with
        | .error e s''' => .error e s'''
        | .ok commands s''' => .ok (command ++ commands) s'''
termination_by s.rest.length
decreasing_by
  have := readHead_named_length false s s' name line after _h
  have := readCommand_length protocols name line after s' s'' command _hc
  omega

def readParameters (protocol : Text) (names : List Text) (s : Scanner) : Result (List Text) :=
  match _h : readToken .structural false s with
  | .error e s' => .error e s'
  | .ok t s' =>
    if t.isSpecial [')'] then
      if maxParameters < names.length then s'.fail (.tooManyParameters protocol)
      else .ok names s'
    else if t.isBlank then readParameters protocol names s'
    else if t.kind = .word && t.text.head?.any fun c => isLetter c || c == '_' then
      if names.contains t.text then s'.fail (.repeatedParameter t.text protocol)
      else readParameters protocol (names ++ [t.text]) s'
    else s'.refuse t (.unexpectedParameter t.source protocol)
termination_by s.rest.length
decreasing_by
  · exact readToken_length_of_not_eofAllowed .structural s s' t _h
  · exact readToken_length_of_not_eofAllowed .structural s s' t _h

theorem readParameters_length (protocol : Text) (names names' : List Text) (s s' : Scanner)
    (h : readParameters protocol names s = .ok names' s') : s'.rest.length ≤ s.rest.length := by
  fun_induction readParameters protocol names s with
  | case1 => simp at h
  | case2 => simp [fail] at h
  | case3 names s t s₁ ht =>
    have := readToken_length_of_not_eofAllowed .structural s s₁ t ht
    simp only [EStateM.Result.ok.injEq] at h
    rw [← h.2]
    omega
  | case4 names s t s₁ ht _ _ ih =>
    have := readToken_length_of_not_eofAllowed .structural s s₁ t ht
    have := ih h
    omega
  | case5 => simp [fail] at h
  | case6 names s t s₁ ht _ _ _ _ ih =>
    have := readToken_length_of_not_eofAllowed .structural s s₁ t ht
    have := ih h
    omega
  | case7 => simp at h

theorem readHandler_length (protocols : List Protocol) (s s' : Scanner) (ts : List Token)
    (h : readHandler protocols s = .ok ts s') : s'.rest.length ≤ s.rest.length := by
  fun_induction readHandler protocols s generalizing ts with
  | case2 s s₁ hh | case3 s s₁ hh =>
    simp only [EStateM.Result.ok.injEq] at h
    rw [← h.2]
    exact readHead_length false s s₁ _ hh
  | case1 => simp at h
  | case4 => simp [fail] at h
  | case5 => simp [fail] at h
  | case6 => simp [fail] at h
  | case7 => simp [fail] at h
  | case8 => simp at h
  | case9 => simp at h
  | case10 s name line after s₁ hh _ _ _ command s₂ hc commands s₃ hr ih =>
    have := readHead_named_length false s s₁ name line after hh
    have := readCommand_length protocols name line after s₁ s₂ command hc
    simp only [EStateM.Result.ok.injEq] at h
    have := ih commands (by rw [hr, h.2])
    omega

def readBody (protocols : List Protocol) (p : Protocol) (s : Scanner) : Result Protocol :=
  match _h : readHead false s with
  | .error e s' => .error e s'
  | .ok .endOfFile s' => .ok p s'
  | .ok .close s' => .ok p s'
  | .ok (.named name line after) s' =>
    if after = some '=' then
      if isHandlerName name then s'.fail (.variableNamedAsHandler name)
      else match _ha : p.readAssignment name line s' with
        | (_, .error e s'') => .error e s''
        | (q, .ok () s'') => readBody protocols q s''
    else if after = some '\x7b' then
      if isHandlerName name then
        match _hh : noted line (.inHandler name) (readHandler protocols s') with
        | .error e s'' => .error e s''
        | .ok ts s'' => readBody protocols (p.assign name line ts) s''
      else s'.fail (.nestedDefinition name)
    else if isHandlerName name then s'.fail (.handlerBodyExpected name)
    else match _hc : readCommand protocols name line after s' with
      | .error e s'' => .error e s''
      | .ok ts s'' => readBody protocols (p.addCommands ts) s''
termination_by s.rest.length
decreasing_by
  · have := readHead_named_length false s s' name line after _h
    have := p.readAssignment_length q name line s' s'' _ha
    omega
  · have := readHead_named_length false s s' name line after _h
    have := readHandler_length protocols s' s'' ts (noted_eq_ok line (.inHandler name) _ ts s'' _hh)
    omega
  · have := readHead_named_length false s s' name line after _h
    have := readCommand_length protocols name line after s' s'' ts _hc
    omega

theorem readBody_length (protocols : List Protocol) (p q : Protocol) (s s' : Scanner)
    (h : readBody protocols p s = .ok q s') : s'.rest.length ≤ s.rest.length := by
  fun_induction readBody protocols p s with
  | case1 => simp at h
  | case2 p s s₁ hh | case3 p s s₁ hh =>
    simp only [EStateM.Result.ok.injEq] at h
    rw [← h.2]
    exact readHead_length false s s₁ _ hh
  | case4 => simp [fail] at h
  | case5 => simp at h
  | case6 p s name line s₁ _ q' s₂ ha hh ih =>
    have := readHead_named_length false s s₁ name line _ hh
    have := p.readAssignment_length q' name line s₁ s₂ ha
    have := ih h
    omega
  | case7 => simp at h
  | case8 p s name line s₁ _ ts s₂ hr hh _ ih =>
    have := readHead_named_length false s s₁ name line _ hh
    have := readHandler_length protocols s₁ s₂ ts (noted_eq_ok line (.inHandler name) _ ts s₂ hr)
    have := ih h
    omega
  | case9 => simp [fail] at h
  | case10 => simp [fail] at h
  | case11 => simp at h
  | case12 p s name line after s₁ hh _ _ _ ts s₂ hc ih =>
    have := readHead_named_length false s s₁ name line after hh
    have := readCommand_length protocols name line after s₁ s₂ ts hc
    have := ih h
    omega

def readSignature (name : Text) (s : Scanner) : Result (List Text) :=
  match readParameters name [] s with
  | .error e s' => .error e s'
  | .ok parameters s' =>
    match s'.readNonblank with
    | (some '\x7b', s'') => .ok parameters s''
    | (c, s'') => s''.fail (.bodyExpected c name)

theorem readSignature_length (name : Text) (s s' : Scanner) (parameters : List Text)
    (h : readSignature name s = .ok parameters s') : s'.rest.length ≤ s.rest.length := by
  unfold readSignature at h
  split at h
  · simp at h
  · next ps s₁ hp =>
    have := readParameters_length name [] ps s s₁ hp
    have hn := s₁.readNonblank_length_le
    split at h
    · next s₂ hc =>
      simp only [EStateM.Result.ok.injEq] at h
      rw [hc] at hn
      simp only at hn
      rw [← h.2]
      omega
    · simp [fail] at h

end Scanner

namespace ProtocolFile

open Scanner (Result)

def readDefinition (f : ProtocolFile) (name : Text) (line : Int) (parameters : List Text)
    (s : Scanner) : Result Protocol :=
  match f.protocols.find? fun p => p.name == name with
  | some p => Scanner.noted p.line (.firstDefinition name) (s.fail (.redefinition name))
  | none =>
    Scanner.noted line (.inProtocol name)
      (s.readBody f.protocols { f.globals.copy name line [] with parameters := parameters })

theorem readDefinition_length (f : ProtocolFile) (name : Text) (line : Int)
    (parameters : List Text) (s s' : Scanner) (p : Protocol)
    (h : f.readDefinition name line parameters s = .ok p s') : s'.rest.length ≤ s.rest.length := by
  unfold readDefinition at h
  split at h
  · simp [Scanner.noted, Scanner.fail] at h
  · exact Scanner.readBody_length _ _ _ _ _ (Scanner.noted_eq_ok _ _ _ _ _ h)

def readOpening (name : Text) (after : Option Char) (s : Scanner) : Result (List Text) :=
  if after = some '(' then s.readSignature name else .ok [] s

theorem readOpening_length (name : Text) (after : Option Char) (s s' : Scanner)
    (parameters : List Text) (h : readOpening name after s = .ok parameters s') :
    s'.rest.length ≤ s.rest.length := by
  unfold readOpening at h
  split at h
  · exact Scanner.readSignature_length name s s' parameters h
  · simp only [EStateM.Result.ok.injEq] at h
    exact h.2 ▸ Nat.le_refl _

def stop (f : ProtocolFile) (s : Scanner) (cause : Cause) : ProtocolFile × Option Failure :=
  (f, some (.fault { cause := cause, line := some s.line }))

/-- Reads statements to the end of the source. After a failure the file holds what was read before it. -/
def readStatements (f : ProtocolFile) (s : Scanner) : ProtocolFile × Option Failure :=
  match _h : s.readHead true with
  | .error e _ => (f, some e)
  | .ok .endOfFile _ => ({ f with valid := true }, none)
  | .ok .close s' => f.stop s' .unmatchedClose
  | .ok (.named name line after) s' =>
    if after = some '=' then
      if isHandlerName name then f.stop s' (.variableNamedAsHandler name)
      else match _ha : f.globals.readAssignment name line s' with
        | (p, .error e _) => ({ f with globals := p }, some e)
        | (p, .ok () s'') => readStatements { f with globals := p } s''
    else if isHandlerName name then
      if after = some '\x7b' then
        match _hh : Scanner.noted line (.inHandler name) (s'.readHandler f.protocols) with
        | .error e _ => (f, some e)
        | .ok ts s'' => readStatements { f with globals := f.globals.assign name line ts } s''
      else f.stop s' (.handlerBodyExpected name)
    else if after = some '\x7b' || after = some '(' then
      match _ho : readOpening name after s' with
      | .error e _ => (f, some e)
      | .ok parameters s'' =>
        match _hd : f.readDefinition name line parameters s'' with
        | .error e _ => (f, some e)
        | .ok p s''' => readStatements { f with protocols := f.protocols ++ [p] } s'''
    else f.stop s' (.definitionExpected after name)
termination_by s.rest.length
decreasing_by
  · have := Scanner.readHead_named_length true s s' name line after _h
    have := f.globals.readAssignment_length p name line s' s'' _ha
    omega
  · have := Scanner.readHead_named_length true s s' name line after _h
    have := Scanner.readHandler_length f.protocols s' s'' ts
      (Scanner.noted_eq_ok line (.inHandler name) _ ts s'' _hh)
    omega
  · have := Scanner.readHead_named_length true s s' name line after _h
    have := readOpening_length name after s' s'' parameters _ho
    have := f.readDefinition_length name line parameters s'' s''' p _hd
    omega

def read (source : Text) (file : Option Text) : ProtocolFile × Option Failure :=
  let (f, failure) := (empty file).readStatements (.ofSource source)
  (f, failure.map (·.mapFault (·.locate none file)))

def ofSource (source : Text) (file : Option Text) : Except Failure ProtocolFile :=
  match read source file with
  | (f, none) => .ok f
  | (_, some e) => .error e

end ProtocolFile
end DeviceProtocol
