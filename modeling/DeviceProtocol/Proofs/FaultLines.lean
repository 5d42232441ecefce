import DeviceProtocol.Scanner.Tokens
import DeviceProtocol.Proofs.Lines
set_option autoImplicit false

namespace DeviceProtocol

namespace Scanner

theorem tokens_advances (s : Scanner) : Advances s (fun _ _ => True) s.tokens := by
  have step := readToken_advances .value true
  fun_induction tokens s with
  | case1 s e s₁ token => exact (step s).of_error token
  | case2 s t s₁ token => exact ⟨((step s).of_ok token).1, trivial⟩
  | case3 s t s₁ token _ e s₂ rest ih => exact (ih.after ((step s).of_ok token).1 fun _ _ _ => id).of_error rest
  | case4 s t s₁ token _ ts s₂ rest ih => exact ⟨((step s).of_ok token).1.trans (ih.of_ok rest).1, trivial⟩

theorem readNonblank_onward (s : Scanner) : Onward s s.readNonblank.2 := s.afterGap_onward.trans s.afterGap.readRaw_onward

theorem skipGap_head_ne_newline (comment : Bool) (cs : Text) (line : Int) :
    (skipGap comment cs line).1.head? ≠ some '\n' := by
  induction cs generalizing comment line with
  | nil => cases comment <;> simp [skipGap]
  | cons c cs ih =>
    cases comment with
    | true =>
      rw [skipGap]
      split
      · exact ih _ _
      · exact ih _ _
    | false =>
      rw [skipGap]
      split
      · exact ih _ _
      · split
        · exact ih _ _
        · next space =>
          intro newline
          cases Option.some.inj newline
          exact space (by decide)

theorem readNonblank_ne_newline (s : Scanner) : s.readNonblank.1 ≠ some '\n' := by
  have head : s.afterGap.rest.head? ≠ some '\n' := skipGap_head_ne_newline false s.rest s.line
  rw [readNonblank, readRaw]
  split
  · simp
  · next c cs hs => rwa [hs] at head

/-- A name starts on a line between the two scanners, and no end of a line follows it. -/
def Head.Within (s s' : Scanner) : Head → Prop
  | .named _ line after => s.line ≤ line ∧ line ≤ s'.line ∧ after ≠ some '\n'
  | .endOfFile | .close => True

theorem readHead_advances (eofAllowed : Bool) (s : Scanner) :
    Advances s (fun head s' => head.Within s s') (readHead eofAllowed s) := by
  have step := readToken_advances .structural eofAllowed
  fun_induction readHead eofAllowed s with
  | case1 s e s₁ token => exact (step s).of_error token
  | case2 s t s₁ token => exact ⟨((step s).of_ok token).1, trivial⟩
  | case3 s t s₁ token _ _ ih =>
    have start := ((step s).of_ok token).1
    refine ih.after start fun head s' _ within => ?_
    cases head with
    | named name line after => exact ⟨Int.le_trans start.line within.1, within.2⟩
    | endOfFile => trivial
    | close => trivial
  | case4 s t s₁ token => exact ⟨((step s).of_ok token).1, trivial⟩
  | case5 s t s₁ token => exact .fail ((step s).of_ok token).1 _
  | case6 s t s₁ token => exact .fail ((step s).of_ok token).1 _
  | case7 s t s₁ token =>
    obtain ⟨start, first, last⟩ := (step s).of_ok token
    have onward := s₁.readNonblank_onward
    exact ⟨start.trans onward, first, Int.le_trans last onward.line, s₁.readNonblank_ne_newline⟩
  | case8 s t s₁ token =>
    rw [refuse_of_token token]
    exact .fail ((step s).of_ok token).1 _

theorem readHead_onward {eofAllowed : Bool} {s s' : Scanner} {head : Head} (h : readHead eofAllowed s = .ok head s') :
    Onward s s' :=
  ((readHead_advances eofAllowed s).of_ok h).1

theorem unread?_onward (s : Scanner) (after : Option Char) (newline : after ≠ some '\n') : Onward s (s.unread? after) := by
  cases after with
  | none => exact .refl s
  | some c => exact s.unread_onward c fun same => newline (by rw [same])

theorem readParameters_advances (protocol : Text) (names : List Text) (s : Scanner) :
    Advances s (fun _ _ => True) (readParameters protocol names s) := by
  have step := readToken_advances .structural false
  fun_induction readParameters protocol names s with
  | case1 names s e s₁ token => exact (step s).of_error token
  | case3 names s t s₁ token => exact ⟨((step s).of_ok token).1, trivial⟩
  | case4 names s t s₁ token _ _ ih => exact ih.after ((step s).of_ok token).1 fun _ _ _ => id
  | case6 names s t s₁ token _ _ _ _ ih => exact ih.after ((step s).of_ok token).1 fun _ _ _ => id
  | case2 names s t s₁ token | case5 names s t s₁ token => exact .fail ((step s).of_ok token).1 _
  | case7 names s t s₁ token =>
    rw [refuse_of_token token]
    exact .fail ((step s).of_ok token).1 _

theorem readSignature_advances (name : Text) (s : Scanner) : Advances s (fun _ _ => True) (readSignature name s) := by
  have parameters := readParameters_advances name [] s
  rw [readSignature]
  split
  · next e s₁ failed => exact parameters.of_error failed
  · next ps s₁ read =>
    have start := (parameters.of_ok read).1
    have onward := s₁.readNonblank_onward
    split
    · next s₂ brace =>
      rw [brace] at onward
      exact ⟨start.trans onward, trivial⟩
    · next c s₂ _ other =>
      rw [other] at onward
      exact .fail (start.trans onward) _

theorem readOpening_advances (name : Text) (after : Option Char) (s : Scanner) :
    Advances s (fun _ _ => True) (ProtocolFile.readOpening name after s) := by
  rw [ProtocolFile.readOpening]
  split
  · exact readSignature_advances name s
  · exact ⟨.refl s, trivial⟩

theorem readRawValue_advances (s : Scanner) :
    Advances s (fun _ _ => True) (readRawValue s).2 ∧
      ∀ t ∈ (readRawValue s).1, s.line ≤ t.line ∧ t.line ≤ s.lastLine := by
  have step := readToken_advances .value false
  fun_induction readRawValue s with
  | case1 s e s₁ token => exact ⟨(step s).of_error token, by simp⟩
  | case2 s t s₁ token => exact ⟨.fail ((step s).of_ok token).1 _, by simp⟩
  | case3 s t s₁ token => exact ⟨⟨((step s).of_ok token).1, trivial⟩, by simp⟩
  | case4 s t s₁ token =>
    have back := s₁.unread_onward '\x7d' (by decide)
    exact ⟨⟨((step s).of_ok token).1.trans back, trivial⟩, by simp⟩
  | case5 s t s₁ token _ _ _ ts ending rest ih =>
    rw [rest] at ih
    obtain ⟨start, first, last⟩ := (step s).of_ok token
    refine ⟨ih.1.after start fun _ _ _ => id, ?_⟩
    rw [List.forall_mem_cons]
    refine ⟨⟨first, Int.le_trans last start.line_le⟩, fun u mem => ?_⟩
    obtain ⟨above, below⟩ := ih.2 u mem
    exact ⟨Int.le_trans start.line above, start.last ▸ below⟩

theorem readLazyValue_advances (s : Scanner) : Advances s (fun _ _ => True) (readLazyValue s) := by
  have value := (readRawValue_advances s).1
  rw [readLazyValue]
  split
  · next ts s₁ read => exact ⟨(value.of_ok (by rw [read])).1, trivial⟩
  · next ts e s₁ failed => exact value.of_error (by rw [failed])

theorem Advances.noted_error {α : Type} {s s' : Scanner} {Q : α → Scanner → Prop} {r : Result α} {e : Failure} {line : Int}
    {note : Note} (h : Advances s Q r) (failed : noted line note r = .error e s') :
    Onward s s' ∧
      ((∃ cause, e = .fault { cause := cause, line := some s'.line, notes := [(some line, note)] }) ∨
        e = .crash .deepNesting) := by
  cases r with
  | ok a s₁ => cases failed
  | error e₁ s₁ =>
    cases failed
    rcases h with ⟨onward, ⟨cause, rfl⟩ | rfl⟩
    · exact ⟨onward, .inl ⟨cause, rfl⟩⟩
    · exact ⟨onward, .inr rfl⟩

variable {protocols : List Protocol} {name : Text} {line : Int} {after : Option Char} {s s' : Scanner} {ts : List Token}
  {e : Failure}

theorem readCommand_onward (newline : after ≠ some '\n') (h : readCommand protocols name line after s = .ok ts s') :
    Onward s s' := by
  rw [readCommand] at h
  split at h
  · cases h
    split
    · exact s.unread_onward '\x7d' (by decide)
    · exact .refl s
  · split at h
    · next us s₁ value =>
      cases h
      have rest := (readLazyValue_advances _).of_ok (noted_eq_ok _ _ _ _ _ value)
      exact (s.unread?_onward after newline).trans rest.1
    · cases h

theorem readCommand_fault (newline : after ≠ some '\n') (h : readCommand protocols name line after s = .error e s') :
    Onward s s' ∧
      ((∃ cause, e = .fault { cause := cause, line := some s'.line, notes := [(some line, .afterCommand name)] }) ∨
        e = .crash .deepNesting) := by
  rw [readCommand] at h
  split at h
  · cases h
  · split at h
    · cases h
    · next e₁ s₁ value =>
      cases h
      obtain ⟨rest, failure⟩ := (readLazyValue_advances _).noted_error value
      exact ⟨(s.unread?_onward after newline).trans rest, failure⟩

end Scanner
end DeviceProtocol
