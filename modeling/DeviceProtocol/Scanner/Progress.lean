import DeviceProtocol.Scanner.TokenCases
set_option autoImplicit false

/-!
Reading a token makes progress: it leaves fewer characters unread, unless it reports the end of a source
of which nothing is left. Every loop over tokens ends for this reason.
-/
namespace DeviceProtocol.Scanner

theorem readWord_length (set : Specials) (s : Scanner) :
    (readWord set s).2.rest.length ≤ s.rest.length := by
  fun_induction readWord set s with
  | case1 s s' h =>
    have hs : s' = s := by
      unfold readChar at h
      split at h
      · exact (Prod.mk.inj h).2.symm
      · split at h
        · simp at h
        · next hr _ => simp [readRaw, hr] at h
    simp [hs]
  | case2 s c s' h hc =>
    have := readChar_length s c s' h
    simp only [unread, List.length_cons]
    omega
  | case3 s c s' h hc tail ih =>
    have := readChar_length s c s' h
    simp only [tail]
    omega

theorem readPiece_length (quote : Quote) (line : Int) :
    (cs : Text) → (readPiece quote line cs).rest.length ≤ cs.length
  | [] => by simp [readPiece]
  | [c] => by
    have := readPiece_length quote line []
    simp only [readPiece, StringPiece.push]
    repeat' split
    all_goals simp
  | c :: d :: ds => by
    have := readPiece_length quote line (d :: ds)
    have := readPiece_length quote line ds
    rw [readPiece]
    simp only [List.length_cons, StringPiece.push] at *
    repeat' split
    all_goals simp only [List.length_cons]
    all_goals omega

theorem readPiece_length_lt (quote : Quote) (line : Int) (c : Char) (cs : Text)
    (h : (c = '$' && startsReference cs) = false) :
    (readPiece quote line (c :: cs)).rest.length < (c :: cs).length := by
  have hle := readPiece_length quote line cs
  unfold readPiece
  simp only [List.length_cons]
  split
  · exact Nat.lt_succ_self _
  · split
    · exact Nat.lt_succ_self _
    · split
      · cases cs with
        | nil => simp
        | cons d ds =>
          simp only [List.length_cons]
          split
          · simp
          · split
            · simp only
              omega
            · have := readPiece_length quote line ds
              simp only [StringPiece.push]
              omega
      · split
        · next hd => rw [h] at hd; simp at hd
        · simp only [StringPiece.push]
          omega

theorem readString_ok (quote : Quote) (s s' : Scanner) (t : Token)
    (h : readString quote s = .ok t s') :
    t.kind = .string ∧ s'.rest = (readPiece quote s.line s.rest).rest := by
  simp only [readString, fail] at h
  split at h <;> simp only [reduceCtorEq, EStateM.Result.ok.injEq] at h
  all_goals
    obtain ⟨rfl, rfl⟩ := h
    simp

theorem readPlainReference_ok (set : Specials) (line : Int) (s s' : Scanner) (t : Token)
    (h : readPlainReference set line s = .ok t s') :
    t.kind = .reference ∧ s'.rest.length < s.rest.length := by
  unfold readPlainReference at h
  split at h
  · simp [fail] at h
  · next c cs hr =>
    have hraw : s.readRaw.2.rest = cs := by simp [readRaw, hr]
    simp only [hr, List.length_cons]
    split at h
    · simp only [EStateM.Result.ok.injEq] at h
      obtain ⟨rfl, rfl⟩ := h
      simp [hraw]
    · split at h
      · simp only at h
        split at h
        · simp [fail] at h
        · next hn =>
          simp only [EStateM.Result.ok.injEq] at h
          obtain ⟨rfl, rfl⟩ := h
          refine ⟨rfl, ?_⟩
          by_cases hc : isNameChar c = true
          · simp only [List.dropWhile_cons, hc, if_true]
            exact Nat.lt_succ_of_le (List.dropWhile_sublist _).length_le
          · simp [hc] at hn
      · simp only at h
        split at h
        · simp [fail] at h
        · simp only [EStateM.Result.ok.injEq] at h
          obtain ⟨rfl, rfl⟩ := h
          have := readWord_length set s.readRaw.2
          rw [hraw] at this
          exact ⟨rfl, Nat.lt_succ_of_le this⟩

theorem closeReference_ok (quote : Option Quote) (line : Int) (name t : Token) (s s' : Scanner)
    (h : closeReference quote line name s = .ok t s') :
    t.kind = .reference ∧ s'.rest.length < s.rest.length := by
  unfold closeReference at h
  split at h
  · simp [fail] at h
  · split at h
    · next s'' hr =>
      have := readRaw_length s _ s'' hr
      simp only [EStateM.Result.ok.injEq] at h
      obtain ⟨rfl, rfl⟩ := h
      simp only [true_and]
      omega
    · simp [fail] at h

theorem readToken_ok (set : Specials) (eofAllowed : Bool) (s s' : Scanner) (t : Token)
    (h : readToken set eofAllowed s = .ok t s') :
    (t.kind = .eof ∧ eofAllowed = true ∧ s'.rest = []) ∨
      (t.kind ≠ .eof ∧ s'.rest.length < s.rest.length) := by
  induction set, eofAllowed, s using readToken_induction generalizing t s' with
  | inside set eofAllowed s quote inside plain token =>
    obtain ⟨kind, rest⟩ := readString_ok quote s s' t (token.symm.trans h)
    refine .inr ⟨by simp [kind], ?_⟩
    rw [rest]
    cases unread : s.rest with
    | nil => simp [token, readString, unread, readPiece, fail] at h
    | cons c cs =>
      refine readPiece_length_lt quote s.line c cs ?_
      by_cases dollar : c = '$'
      · subst dollar
        have part := plain cs unread
        simp_all
      · simp [dollar]
  | opening set eofAllowed s c s₁ quote outside first opens token =>
    have shorter := readFirst_length s c s₁ first
    obtain ⟨kind, rest⟩ := readString_ok quote s₁ s' t (token.symm.trans h)
    have := readPiece_length quote s₁.line s₁.rest
    refine .inr ⟨by simp [kind], ?_⟩
    rw [rest]
    omega
  | ended set s outside rest token =>
    cases token.symm.trans h
    exact .inl ⟨rfl, rfl, rest⟩
  | cut set s outside rest token => cases token.symm.trans h
  | deep set eofAllowed s cs rest tooDeep token => cases token.symm.trans h
  | braced set eofAllowed s cs rest _ token ih =>
    obtain ⟨name, s₂, inner, close⟩ := closeBraces_eq_ok (token.symm.trans h)
    obtain ⟨kind, shorter⟩ := closeReference_ok s.quote s.line name t s₂ s' close
    have inside := ih s₂ name inner
    simp only [Bool.false_eq_true, false_and, and_false, false_or] at inside
    refine .inr ⟨by simp [kind], ?_⟩
    simp only [rest, List.length_cons]
    omega
  | plain set eofAllowed s cs rest unbraced starts token =>
    obtain ⟨kind, shorter⟩ := readPlainReference_ok set s.line _ s' t (token.symm.trans h)
    refine .inr ⟨by simp [kind], ?_⟩
    rw [rest]
    exact Nat.lt_succ_of_lt shorter
  | special set eofAllowed s c s₁ outside first other unquoted special token =>
    cases token.symm.trans h
    exact .inr ⟨by simp, readFirst_length s c s₁ first⟩
  | word set eofAllowed s c s₁ outside first other unquoted plain token =>
    cases token.symm.trans h
    exact .inr ⟨by simp, Nat.lt_of_le_of_lt (readWord_length set s₁) (readFirst_length s c s₁ first)⟩

theorem readToken_length (set : Specials) (eofAllowed : Bool) (s s' : Scanner) (t : Token)
    (h : readToken set eofAllowed s = .ok t s') (hk : t.kind ≠ .eof) :
    s'.rest.length < s.rest.length := by
  rcases readToken_ok set eofAllowed s s' t h with h' | h'
  · exact absurd h'.1 hk
  · exact h'.2

theorem readToken_length_of_not_eofAllowed (set : Specials) (s s' : Scanner) (t : Token)
    (h : readToken set false s = .ok t s') : s'.rest.length < s.rest.length := by
  rcases readToken_ok set false s s' t h with h' | h'
  · simp at h'
  · exact h'.2

theorem readToken_ok_cases (set : Specials) (eofAllowed : Bool) (s s' : Scanner) (t : Token)
    (h : readToken set eofAllowed s = .ok t s') :
    (∃ quote s₁, readString quote s₁ = .ok t s') ∨ t.kind = .reference ∨
      (t = ⟨.eof, [], s.line, none⟩ ∧ s' = s ∧ s.rest = [] ∧ s.quote = none) ∨
      ∃ c s₁, s.readFirst = (some c, s₁) ∧ s.quote = none ∧ c ≠ '$' ∧ Quote.ofChar? c = none ∧
        ((set.contains c = true ∧ t = ⟨.special, [c], s₁.line, none⟩ ∧ s' = s₁) ∨
          (set.contains c = false ∧ t = ⟨.word, lowerChar c ++ (readWord set s₁).1, s₁.line, none⟩ ∧
            s' = (readWord set s₁).2)) := by
  induction set, eofAllowed, s using readToken_induction generalizing t s' with
  | inside set eofAllowed s quote inside plain token => exact .inl ⟨quote, s, token.symm.trans h⟩
  | opening set eofAllowed s c s₁ quote outside first opens token => exact .inl ⟨quote, s₁, token.symm.trans h⟩
  | ended set s outside rest token =>
    cases token.symm.trans h
    exact .inr (.inr (.inl ⟨rfl, rfl, rest, outside⟩))
  | cut set s outside rest token => cases token.symm.trans h
  | deep set eofAllowed s cs rest tooDeep token => cases token.symm.trans h
  | braced set eofAllowed s cs rest few token ih =>
    obtain ⟨name, s₂, inner, close⟩ := closeBraces_eq_ok (token.symm.trans h)
    exact .inr (.inl (closeReference_ok s.quote s.line name t s₂ s' close).1)
  | plain set eofAllowed s cs rest unbraced starts token =>
    exact .inr (.inl (readPlainReference_ok set s.line _ s' t (token.symm.trans h)).1)
  | special set eofAllowed s c s₁ outside first other unquoted special token =>
    cases token.symm.trans h
    exact .inr (.inr (.inr ⟨c, s₁, first, outside, other, unquoted, .inl ⟨special, rfl, rfl⟩⟩))
  | word set eofAllowed s c s₁ outside first other unquoted plain token =>
    cases token.symm.trans h
    exact .inr (.inr (.inr ⟨c, s₁, first, outside, other, unquoted, .inr ⟨plain, rfl, rfl⟩⟩))

end DeviceProtocol.Scanner
