import DeviceProtocol.Proofs.LineEnds
import DeviceProtocol.Proofs.ReadingSteps
set_option autoImplicit false

namespace DeviceProtocol

namespace Scanner

theorem readToken_takes (set : Specials) (eofAllowed : Bool) (s s' : Scanner) (t : Token)
    (h : readToken set eofAllowed s = .ok t s') :
    (t.kind = .eof ∧ s' = s ∧ s.rest = []) ∨ (t.kind ≠ .eof ∧ s'.rest.length < s.rest.length) := by
  by_cases eof : t.kind = .eof
  · obtain ⟨-, same, nothing, -⟩ := readToken_eof set eofAllowed s s' t h eof
    exact .inl ⟨eof, same, nothing⟩
  · exact .inr ⟨eof, readToken_length set eofAllowed s s' t h eof⟩

theorem tokens_length (s s' : Scanner) (ts : List Token) (h : s.tokens = .ok ts s') :
    ts.length ≤ s.rest.length + 1 := by
  fun_induction tokens s generalizing ts with
  | case1 => cases h
  | case2 s t s₁ token eof =>
    cases h
    exact Nat.le_add_left 1 _
  | case3 => cases h
  | case4 s t s₁ token more us s₂ rest ih =>
    cases h
    have shorter := readToken_length .value true s s₁ t token more
    have few := ih us rest
    rw [List.length_cons]
    omega

theorem tokens_end (s s' : Scanner) (ts : List Token) (h : s.tokens = .ok ts s') :
    ∃ front last, ts = front ++ [last] ∧ last.kind = .eof ∧ ∀ t ∈ front, t.kind ≠ .eof := by
  fun_induction tokens s generalizing ts with
  | case1 => cases h
  | case2 s t s₁ token eof =>
    cases h
    refine ⟨[], t, rfl, eof, ?_⟩
    rintro _ ⟨⟩
  | case3 => cases h
  | case4 s t s₁ token more us s₂ rest ih =>
    cases h
    obtain ⟨front, last, rfl, eof, others⟩ := ih us rest
    exact ⟨t :: front, last, rfl, eof, List.forall_mem_cons.2 ⟨more, others⟩⟩

theorem readHead_takes (eofAllowed : Bool) (s s' : Scanner) (head : Head)
    (h : readHead eofAllowed s = .ok head s') :
    head = .endOfFile ∧ eofAllowed = true ∨ s'.rest.length < s.rest.length := by
  fun_induction readHead eofAllowed s with
  | case1 => cases h
  | case2 s t s₁ token eof =>
    cases h
    rcases readToken_ok _ _ _ _ _ token with ⟨-, allowed, -⟩ | ⟨other, -⟩
    · exact .inl ⟨rfl, allowed⟩
    · exact absurd eof other
  | case3 s t s₁ token other _ ih =>
    have shorter := readToken_length .structural eofAllowed s s₁ t token other
    exact (ih h).imp_right fun more => Nat.lt_trans more shorter
  | case4 s t s₁ token other =>
    cases h
    exact .inr (readToken_length .structural eofAllowed s s' t token other)
  | case5 => cases h
  | case6 => cases h
  | case7 s t s₁ token other =>
    cases h
    have shorter := readToken_length .structural eofAllowed s s₁ t token other
    have := s₁.readNonblank_length_le
    exact .inr (by omega)
  | case8 => exact absurd h (refuse_ne_ok _ _ _ _ _)

end Scanner

namespace Position

open Scanner (readHead_takes readHead_named_length readCommand_length)

variable {q q' : Position}

theorem closeHandler_scanner (q : Position) (b : Block) (ts : List Token) (s : Scanner) :
    (q.closeHandler b ts s).scanner = s := by
  rw [closeHandler]
  split <;> rfl

theorem stepHandler_length {b : Block} {ts : List Token} (h : q.stepHandler b ts = .goes q') :
    q'.scanner.rest.length < q.scanner.rest.length := by
  rw [stepHandler] at h
  split at h
  · cases h
  · next s head =>
    cases h
    rw [closeHandler_scanner]
    simpa using readHead_takes false q.scanner s .endOfFile head
  · next s head =>
    cases h
    rw [closeHandler_scanner]
    simpa using readHead_takes false q.scanner s .close head
  · next name line after s head =>
    have start := readHead_named_length false q.scanner s name line after head
    repeat' split at h
    all_goals try cases h
    next us s' command =>
      have more := readCommand_length q.file.protocols name line after s s' us command
      exact Nat.lt_of_le_of_lt more start

theorem stepBody_length {b : Block} {p : Protocol} (h : q.stepBody b p = .goes q') :
    q'.scanner.rest.length < q.scanner.rest.length := by
  rw [stepBody] at h
  split at h
  · cases h
  · next s head =>
    cases h
    simpa using readHead_takes false q.scanner s .endOfFile head
  · next s head =>
    cases h
    simpa using readHead_takes false q.scanner s .close head
  · next name line after s head =>
    have start := readHead_named_length false q.scanner s name line after head
    have start' : s.rest.length < q.scanner.rest.length := Nat.lt_of_le_of_lt (Nat.le_add_right _ _) start
    repeat' split at h
    all_goals try cases h
    · next p' s' assignment =>
      exact Nat.lt_of_le_of_lt (p.readAssignment_length p' name line s s' assignment) start'
    · exact start'
    · next us s' command =>
      exact Nat.lt_of_le_of_lt (readCommand_length q.file.protocols name line after s s' us command) start

theorem stepFile_length (h : q.stepFile = .goes q') : q'.scanner.rest.length < q.scanner.rest.length := by
  rw [stepFile] at h
  split at h
  · cases h
  · cases h
  · cases h
  · next name line after s head =>
    have start := readHead_named_length true q.scanner s name line after head
    have start' : s.rest.length < q.scanner.rest.length := Nat.lt_of_le_of_lt (Nat.le_add_right _ _) start
    repeat' split at h
    all_goals try cases h
    · next p' s' assignment =>
      exact Nat.lt_of_le_of_lt (q.file.globals.readAssignment_length p' name line s s' assignment) start'
    · exact start'
    · next parameters s' opening _ _ =>
      exact Nat.lt_of_le_of_lt (ProtocolFile.readOpening_length name after s s' parameters opening) start'

theorem step_length (h : q.step = .goes q') : q'.scanner.rest.length < q.scanner.rest.length := by
  rw [step] at h
  split at h
  · exact stepHandler_length h
  · exact stepBody_length h
  · exact stepFile_length h

/-- What reading comes to, if it takes no more than this many steps. -/
def run : Nat → Position → Option (ProtocolFile × Option Failure)
  | 0, q => q.outcome?
  | n + 1, q =>
    match q.step with
    | .goes q' => q'.run n
    | .ends _ | .stops _ _ => q.outcome?

theorem run_of_outcome {r : ProtocolFile × Option Failure} (n : Nat) (h : q.outcome? = some r) : q.run n = some r := by
  cases n with
  | zero => exact h
  | succ n =>
    rw [run]
    split
    · next q' goes => cases (outcome?_of_goes goes).symm.trans h
    · exact h
    · exact h

theorem run_of_goes (n : Nat) (h : q.step = .goes q') : q.run (n + 1) = q'.run n := by rw [run, h]

theorem run_of_yields {r : ProtocolFile × Option Failure} (n : Nat) (h : Yields q r)
    (enough : q.scanner.rest.length ≤ n) : q.run n = some r := by
  -- as many steps as there are characters left are enough
  obtain ⟨last, steps, outcome⟩ := h
  induction steps using Relation.ReflTransGen.head_induction_on generalizing n with
  | refl => exact run_of_outcome n outcome
  | @head q q' next _ ih =>
    have shorter := step_length next
    obtain ⟨m, rfl⟩ : ∃ m, n = m + 1 := ⟨n - 1, by omega⟩
    rw [run_of_goes m next]
    exact ih m (by omega)

end Position

/-- A token that is read is the end of the source, where nothing is left, or it takes characters. So there are at most
as many tokens as characters and the end behind them, and at most as many steps lead to what the source is read as. -/
theorem reading_ends (source : Text) (file : Option Text) :
    (∀ set eofAllowed s t s', Scanner.readToken set eofAllowed s = .ok t s' →
      (t.kind = .eof ∧ s' = s ∧ s.rest = []) ∨ (t.kind ≠ .eof ∧ s'.rest.length < s.rest.length)) ∧
    (∀ ts, tokenize source = .ok ts → ts.length ≤ source.length + 1 ∧
      ∃ front last, ts = front ++ [last] ∧ last.kind = .eof ∧ ∀ t ∈ front, t.kind ≠ .eof) ∧
    (∀ q q' : Position, q.step = .goes q' → q'.scanner.rest.length < q.scanner.rest.length) ∧
    ∃ f failure, Position.run source.length ⟨.empty file, none, none, .ofSource source⟩ = some (f, failure) ∧
      ProtocolFile.read source file = (f, failure.map (·.mapFault (·.locate none file))) := by
  refine ⟨fun set eofAllowed s t s' => Scanner.readToken_takes set eofAllowed s s' t, fun ts h => ?_,
    fun q q' => Position.step_length, _, _,
    Position.run_of_yields _ (Position.yields_readStatements (.empty file) (.ofSource source)) (Nat.le_refl _), rfl⟩
  rw [tokenize] at h
  split at h
  · next us s' tokens =>
    cases h
    exact ⟨Scanner.tokens_length _ s' ts tokens, Scanner.tokens_end _ s' ts tokens⟩
  · cases h

end DeviceProtocol
