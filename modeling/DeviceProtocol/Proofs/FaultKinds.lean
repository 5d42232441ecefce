import DeviceProtocol.Host
import DeviceProtocol.Proofs.ReferenceDepth
set_option autoImplicit false

namespace DeviceProtocol

namespace Scanner

def Usual {α : Type} (r : Result α) : Prop := ∀ f s, r = .error (.fault f) s → f.cause.Usual

section

variable {α β : Type}

theorem usual_ok (a : α) (s : Scanner) : Usual (.ok a s : Result α) := by
  rintro f s' ⟨⟩

theorem usual_fail (s : Scanner) (cause : Cause) (h : cause.Usual) : Usual (s.fail cause : Result α) := by
  rintro f s' ⟨⟩
  exact h

theorem usual_crash (c : Crash) (s : Scanner) : Usual (.error (.crash c) s : Result α) := by
  rintro f s' ⟨⟩

theorem usual_refuse (s : Scanner) (t : Token) (cause : Cause) (h : cause.Usual) :
    Usual (s.refuse t cause : Result α) := by
  unfold refuse
  split
  · exact usual_crash _ s
  · exact usual_fail s cause h

theorem Usual.of_error {r : Result α} {e : Failure} {s : Scanner} (h : Usual r) (hr : r = .error e s) :
    Usual (.error e s : Result β) := by
  rintro f s' ⟨⟩
  exact h f s hr

theorem usual_noted {r : Result α} (h : Usual r) (line : Int) (note : Note) : Usual (noted line note r) := by
  cases r with
  | ok a s => exact usual_ok a s
  | error e s =>
    cases e with
    | fault f =>
      rintro g s' ⟨⟩
      exact h f s rfl
    | crash c => exact usual_crash c s

end

theorem readString_usual (quote : Quote) (s : Scanner) : Usual (readString quote s) := by
  rw [readString]
  dsimp only
  split
  · exact usual_ok _ _
  · exact usual_ok _ _
  · exact usual_ok _ _
  · exact usual_fail _ _ (.of_kind rfl)
  · exact usual_fail _ _ (.of_kind rfl)

theorem readPlainReference_usual (set : Specials) (line : Int) (s : Scanner) :
    Usual (readPlainReference set line s) := by
  rw [readPlainReference]
  split
  · exact usual_fail _ _ (.of_kind rfl)
  · dsimp only
    split
    · exact usual_ok _ _
    · split
      · split
        · exact usual_fail _ _ (.of_kind rfl)
        · exact usual_ok _ _
      · split
        · exact usual_fail _ _ (.of_kind rfl)
        · exact usual_ok _ _

theorem closeReference_usual (quote : Option Quote) (line : Int) (name : Token) (s : Scanner) :
    Usual (closeReference quote line name s) := by
  rw [closeReference]
  split
  · exact usual_fail _ _ (.of_kind rfl)
  · split
    · exact usual_ok _ _
    · exact usual_fail _ _ (.of_kind rfl)

theorem readToken_usual (set : Specials) (eofAllowed : Bool) (s : Scanner) : Usual (readToken set eofAllowed s) := by
  induction set, eofAllowed, s using readToken_induction with
  | inside set eofAllowed s quote inside plain token =>
    rw [token]
    exact readString_usual _ _
  | opening set eofAllowed s c s₁ quote outside first opens token =>
    rw [token]
    exact readString_usual _ _
  | cut set s outside rest token =>
    rw [token]
    exact usual_fail _ _ (.of_kind rfl)
  | deep set eofAllowed s cs rest tooDeep token =>
    rw [token]
    exact usual_crash _ _
  | braced set eofAllowed s cs rest few token ih =>
    rw [token]
    cases inner : readToken .braced false { rest := cs, line := s.line } with
    | ok name s₂ => exact closeReference_usual _ _ _ _
    | error e s₂ => exact ih.of_error inner
  | plain set eofAllowed s cs rest unbraced starts token =>
    rw [token]
    exact readPlainReference_usual _ _ _
  | ended _ _ _ _ token | special _ _ _ _ _ _ _ _ _ _ token | word _ _ _ _ _ _ _ _ _ _ token =>
    rw [token]
    exact usual_ok _ _

theorem readHead_usual (eofAllowed : Bool) (s : Scanner) : Usual (readHead eofAllowed s) := by
  fun_induction readHead eofAllowed s with
  | case1 s e s₁ token => exact (readToken_usual .structural eofAllowed s).of_error token
  | case2 => exact usual_ok _ _
  | case3 s t s₁ token eof blank ih => exact ih
  | case4 => exact usual_ok _ _
  | case7 => exact usual_ok _ _
  | case8 => exact usual_refuse _ _ _ (.of_kind rfl)
  | _ => exact usual_fail _ _ (.of_kind rfl)

theorem readRawValue_usual (s : Scanner) : Usual (readRawValue s).2 := by
  fun_induction readRawValue s with
  | case1 s e s₁ token => exact (readToken_usual .value false s).of_error token
  | case2 => exact usual_fail _ _ (.of_kind rfl)
  | case3 => exact usual_ok _ _
  | case4 => exact usual_ok _ _
  | case5 s t s₁ token _ _ _ ts ending rest ih =>
    rw [rest] at ih
    exact ih

theorem readLazyValue_usual (s : Scanner) : Usual (readLazyValue s) := by
  have raw := readRawValue_usual s
  rw [readLazyValue]
  split
  · exact usual_ok _ _
  · next hv =>
    rw [hv] at raw
    exact raw.of_error rfl

theorem readCommand_usual (protocols : List Protocol) (name : Text) (line : Int) (after : Option Char) (s : Scanner) :
    Usual (readCommand protocols name line after s) := by
  rw [readCommand]
  split
  · exact usual_ok _ _
  · have value := usual_noted (readLazyValue_usual (s.unread? after)) line (.afterCommand name)
    split
    · exact usual_ok _ _
    · next hv => exact value.of_error hv

theorem readHandler_usual (protocols : List Protocol) (s : Scanner) : Usual (readHandler protocols s) := by
  fun_induction readHandler protocols s with
  | case1 s e s₁ head => exact (readHead_usual false s).of_error head
  | case2 => exact usual_ok _ _
  | case3 => exact usual_ok _ _
  | case8 s name line after s₁ head _ _ _ e s₂ command =>
    exact (readCommand_usual protocols name line after s₁).of_error command
  | case9 s name line after s₁ head _ _ _ ts s₂ command e s₃ rest ih => exact ih.of_error rest
  | case10 => exact usual_ok _ _
  | _ => exact usual_fail _ _ (.of_kind rfl)

theorem readParameters_usual (protocol : Text) (names : List Text) (s : Scanner) :
    Usual (readParameters protocol names s) := by
  fun_induction readParameters protocol names s with
  | case1 names s e s₁ token => exact (readToken_usual .structural false s).of_error token
  | case3 => exact usual_ok _ _
  | case4 names s t s₁ token _ _ ih => exact ih
  | case6 names s t s₁ token _ _ _ _ ih => exact ih
  | case7 => exact usual_refuse _ _ _ (.of_kind rfl)
  | _ => exact usual_fail _ _ (.of_kind rfl)

theorem readSignature_usual (name : Text) (s : Scanner) : Usual (readSignature name s) := by
  rw [readSignature]
  split
  · next hp => exact (readParameters_usual name [] s).of_error hp
  · split
    · exact usual_ok _ _
    · exact usual_fail _ _ (.of_kind rfl)

end Scanner

namespace Protocol

theorem settle_usual (p : Protocol) (ts : List Token) : Blames Cause.Usual (p.settle ts).result := by
  have settled (front : List Token) : Blames Cause.Usual (p.settleAfter front ts).result := by
    induction ts generalizing front with
    | nil => exact blames_ok _
    | cons t ts ih =>
      rw [settleAfter]
      split
      · refine Traced.blames_bind (parameterIndex_usual t.text) fun i _ => ?_
        cases i with
        | some i => exact ih _
        | none => exact Traced.blames_bind (resolve_usual t) fun value _ => ih _
      · split
        · exact ih _
        · exact ih _
  exact Traced.blames_bind (settled []) fun _ _ => blames_ok _

theorem readAssignment_usual (p : Protocol) (name : Text) (line : Int) (s : Scanner) :
    Scanner.Usual (p.readAssignment name line s).2 := by
  have raw := s.readRawValue_usual
  have value := p.settle_usual s.readRawValue.1
  rw [readAssignment]
  dsimp only
  split
  · next e he =>
    have failed : Scanner.Usual (.error e s : Scanner.Result Unit) := by
      rintro f s' ⟨⟩
      exact value f he
    exact Scanner.usual_noted failed line (.inAssignment name)
  · next e s' _ he => exact Scanner.usual_noted (raw.of_error he) line (.inAssignment name)
  · exact Scanner.usual_ok _ _

end Protocol

theorem Scanner.readBody_usual (protocols : List Protocol) (p : Protocol) (s : Scanner) :
    Usual (readBody protocols p s) := by
  fun_induction readBody protocols p s with
  | case1 p s e s₁ head => exact (readHead_usual false s).of_error head
  | case2 => exact usual_ok _ _
  | case3 => exact usual_ok _ _
  | case5 p s name line s₁ _ q e s₂ assigned head =>
    have value := p.readAssignment_usual name line s₁
    rw [assigned] at value
    exact value.of_error rfl
  | case6 p s name line s₁ _ q s₂ assigned head ih => exact ih
  | case7 p s name line s₁ _ e s₂ handler head _ =>
    exact (usual_noted (readHandler_usual protocols s₁) line (.inHandler name)).of_error handler
  | case8 p s name line s₁ _ ts s₂ handler head _ ih => exact ih
  | case11 p s name line after s₁ head _ _ _ e s₂ command =>
    exact (readCommand_usual protocols name line after s₁).of_error command
  | case12 p s name line after s₁ head _ _ _ ts s₂ command ih => exact ih
  | _ => exact usual_fail _ _ (.of_kind rfl)

namespace ProtocolFile

open Scanner (Usual usual_ok usual_fail usual_noted)

theorem readOpening_usual (name : Text) (after : Option Char) (s : Scanner) : Usual (readOpening name after s) := by
  rw [readOpening]
  split
  · exact s.readSignature_usual name
  · exact usual_ok _ _

theorem readDefinition_usual (f : ProtocolFile) (name : Text) (line : Int) (parameters : List Text) (s : Scanner) :
    Usual (f.readDefinition name line parameters s) := by
  rw [readDefinition]
  split
  · exact usual_noted (usual_fail _ _ (.of_kind rfl)) _ _
  · exact usual_noted (Scanner.readBody_usual _ _ _) _ _

theorem readStatements_usual (f : ProtocolFile) (s : Scanner) (g : Fault)
    (failed : (f.readStatements s).2 = some (.fault g)) : g.cause.Usual := by
  fun_induction readStatements f s with
  | case1 f s e s₁ head =>
    cases failed
    exact s.readHead_usual true g s₁ head
  | case2 => cases failed
  | case5 f s name line s₁ _ p e s₂ assigned head =>
    cases failed
    have value := f.globals.readAssignment_usual name line s₁
    rw [assigned] at value
    exact value g s₂ rfl
  | case6 f s name line s₁ _ p s₂ assigned head ih => exact ih failed
  | case7 f s name line s₁ _ e s₂ handler head _ =>
    cases failed
    exact usual_noted (s₁.readHandler_usual f.protocols) line (.inHandler name) g s₂ handler
  | case8 f s name line s₁ _ ts s₂ handler head _ ih => exact ih failed
  | case10 f s name line after s₁ head _ _ _ e s₂ opening =>
    cases failed
    exact readOpening_usual name after s₁ g s₂ opening
  | case11 f s name line after s₁ head _ _ _ parameters s₂ opening e s₃ definition =>
    cases failed
    exact f.readDefinition_usual name line parameters s₂ g s₃ definition
  | case12 f s name line after s₁ head _ _ _ parameters s₂ opening p s₃ definition ih => exact ih failed
  | _ =>
    cases failed
    exact .of_kind rfl

theorem read_usual (source : Text) (file : Option Text) (g : Fault) (failed : (read source file).2 = some (.fault g)) :
    g.cause.Usual := by
  rw [read] at failed
  obtain ⟨e, he, located⟩ := Option.map_eq_some_iff.mp failed
  cases e with
  | fault f =>
    cases located
    exact readStatements_usual (empty file) (.ofSource source) f he
  | crash => cases located

theorem ofSource_usual (source : Text) (file : Option Text) : Blames Cause.Usual (ofSource source file) := by
  intro g failed
  rw [ofSource] at failed
  split at failed
  · cases failed
  · next f e read =>
    cases failed
    exact read_usual source file g (congrArg Prod.snd read)

theorem instantiate_usual (f : ProtocolFile) (text : Text) :
    Blames Cause.Usual ((f.instantiate text).mapError Failure.fault) := by
  rw [instantiate]
  split
  · next cause hc =>
    refine blames_fault _ ?_
    rw [Instantiation.ofText] at hc
    split at hc
    · cases hc
    · split at hc
      · cases hc
        exact .of_kind rfl
      · split at hc
        · cases hc
        · cases hc
          exact .of_kind rfl
  · split
    · exact blames_fault _ (.of_kind rfl)
    · exact blames_ok _

end ProtocolFile

namespace Protocol

theorem consult_usual (p : Protocol) (name : Text) : Blames Cause.Usual (p.consult name).result := by
  rw [consult_result]
  exact blames_ok _

theorem numberVariable_usual (p : Protocol) (name : Text) (limit : Int) :
    Blames Cause.Usual (p.numberVariable name limit).result := by
  refine Traced.blames_bind (p.consult_usual name) fun b _ => ?_
  cases b with
  | none => exact blames_ok _
  | some b =>
    refine Traced.blames_bind ((compileNumber_usual _ limit).mapError _ fun _ => rfl) ?_
    rintro ⟨n, a⟩ _
    dsimp only
    split
    · exact blames_ok _
    · exact blames_fault _ (.of_kind rfl)

theorem choiceVariable_usual (p : Protocol) (name : Text) (choices : List Text) :
    Blames Cause.Usual (p.choiceVariable name choices).result := by
  refine Traced.blames_bind (p.consult_usual name) fun b _ => ?_
  cases b with
  | none => exact blames_ok _
  | some b =>
    dsimp only
    split
    · exact blames_ok _
    · exact blames_fault _ (.of_kind rfl)

theorem requireUsed_usual (p : Protocol) (uses : List Use) : Blames Cause.Usual (p.requireUsed uses) := by
  have checked (bs : List Binding) (f : Fault) (found : ((p.touch uses).checkBindings bs).2 = some f) :
      f.cause.Usual := by
    induction bs with
    | nil => cases found
    | cons b bs ih =>
      rw [checkBindings] at found
      split at found
      · exact ih found
      · split at found
        · cases found
          exact .of_kind rfl
        · exact ih found
  rw [requireUsed]
  split
  · next fault found => exact blames_fault fault (checked _ fault found)
  · exact blames_ok _

end Protocol

namespace Compiler

variable {k : Compiler} {P : Cause → Prop}

theorem numberSetting_usual (p : Protocol) (name : String) (default : Int) :
    Blames Cause.Usual (numberSetting p name default).result := by
  refine Traced.blames_bind (p.numberVariable_usual name.toList maxNumber) fun n _ => ?_
  cases n with
  | none => exact blames_ok _
  | some n => exact blames_ok _

theorem handlerPrograms_blames (usual : ∀ c, c.Usual → P c) (hk : ∀ text mode, Blames P (k.converter text mode))
    (p : Protocol) (h : ∀ b ∈ p.bindings, k.Admits p P b.value) : Blames P (k.handlerPrograms p).result := by
  refine Traced.blames_flatMap _ fun name _ => ?_
  refine Traced.blames_bind (handlerProgram_blames usual hk name h) fun program _ => ?_
  cases program with
  | none => exact blames_ok _
  | some program => exact blames_ok _

theorem compileProtocol_blames (usual : ∀ c, c.Usual → P c) (hk : ∀ text mode, Blames P (k.converter text mode))
    (deep : P (.nestedTooDeep k.depthLimit)) (bare : P .backslashAtEnd) (p : Protocol) :
    Blames P (k.compileProtocol p).result := by
  have admits (ts : List Token) : k.Admits p P ts := fun t _ =>
    Protocol.admits_of_causes (Cell.ofQuoted_blames usual bare) deep _ t
  have number (name : String) (default : Int) : Blames P (numberSetting p name default).result :=
    (numberSetting_usual p name default).mono usual
  have string (name : String) (default : List Instruction) : Blames P (k.stringSetting p name default).result :=
    Traced.blames_bind (stringVariable_blames usual hk name.toList fun b _ => admits b.value) fun _ _ => blames_ok _
  have settings : Blames P (k.readSettings p).result := by
    refine Traced.blames_bind (number "locktimeout" 5000) fun _ _ => ?_
    refine Traced.blames_bind (number "writetimeout" 100) fun _ _ => ?_
    refine Traced.blames_bind (number "replytimeout" 1000) fun _ _ => ?_
    refine Traced.blames_bind (number "readtimeout" 100) fun _ _ => ?_
    refine Traced.blames_bind ((p.numberVariable_usual "pollperiod".toList maxNumber).mono usual) fun _ _ => ?_
    refine Traced.blames_bind (number "maxinput" 0) fun _ _ => ?_
    refine Traced.blames_bind (string "terminator" []) fun terminator _ => ?_
    refine Traced.blames_bind (string "interminator" terminator) fun _ _ => ?_
    refine Traced.blames_bind (string "outterminator" terminator) fun _ _ => ?_
    refine Traced.blames_bind (string "separator" []) fun _ _ => ?_
    refine Traced.blames_bind ((p.choiceVariable_usual "extrainput".toList _).mono usual) fun _ _ => ?_
    exact blames_ok _
  have handlers := handlerPrograms_blames usual hk p fun b _ => admits b.value
  refine Traced.blames_bind settings fun _ _ => Traced.blames_bind handlers fun _ _ => ?_
  exact Traced.blames_bind (ownProgram_blames usual hk (admits _)) fun _ _ => blames_ok _

end Compiler
end DeviceProtocol
