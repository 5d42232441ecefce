import DeviceProtocol.Proofs.TextAppended
set_option autoImplicit false

namespace DeviceProtocol

namespace Scanner

def lastLine (s : Scanner) : Int := s.line + s.rest.count '\n'

theorem readRaw_lastLine (s : Scanner) : s.readRaw.2.lastLine = s.lastLine := by
  rw [readRaw]
  split
  · rfl
  · next c cs hs =>
    by_cases newline : c = '\n'
    · simp only [lastLine, hs, newline, if_true, List.count_cons_self]
      omega
    · simp only [lastLine, hs, newline, if_false, List.count_cons_of_ne newline]

theorem unread_lastLine (s : Scanner) (c : Char) : (s.unread c).lastLine = s.lastLine := by
  by_cases newline : c = '\n'
  · simp only [lastLine, unread, newline, if_true, List.count_cons_self]
    omega
  · simp only [lastLine, unread, newline, if_false, List.count_cons_of_ne newline]

theorem skipGap_lines (comment : Bool) (cs : Text) (line : Int) :
    (skipGap comment cs line).2 + (skipGap comment cs line).1.count '\n' = line + cs.count '\n' := by
  induction cs generalizing comment line with
  | nil => cases comment <;> rfl
  | cons c cs ih =>
    by_cases newline : c = '\n'
    · subst newline
      have space : isSpace '\n' = true := by decide
      have rest : line + 1 + cs.count '\n' = line + ('\n' :: cs).count '\n' := by
        rw [List.count_cons_self]
        omega
      cases comment with
      | true => simpa only [skipGap, if_true, ← rest] using ih false (line + 1)
      | false =>
        simpa only [skipGap, space, if_true, if_false, ← rest, show ('\n' = '#') = False by decide] using
          ih false (line + 1)
    · rw [List.count_cons_of_ne newline]
      cases comment with
      | true => simpa only [skipGap, newline, if_false] using ih true line
      | false =>
        simp only [skipGap, newline, if_false]
        split
        · exact ih true line
        · split
          · exact ih false line
          · rw [List.count_cons_of_ne newline]

theorem afterGap_lastLine (s : Scanner) : s.afterGap.lastLine = s.lastLine := skipGap_lines false s.rest s.line

theorem readPiece_lines (quote : Quote) (line : Int) (cs : Text) :
    (readPiece quote line cs).line + (readPiece quote line cs).rest.count '\n' = line + cs.count '\n' := by
  induction cs using readPiece_induction quote line with
  | nil piece => rw [piece]
  | newline cs piece =>
    rw [piece, List.count_cons_self]
    dsimp only
    omega
  | close cs newline piece => rw [piece, List.count_cons_of_ne newline]
  | last piece =>
    rw [piece]
    rfl
  | dollar ds _ piece =>
    rw [piece, List.count_cons_of_ne (show '\\' ≠ '\n' by decide)]
  | broken ds piece =>
    rw [piece, List.count_cons_of_ne (by decide), List.count_cons_self]
    dsimp only
    omega
  | escape d ds _ _ newline piece ih =>
    rw [piece, List.count_cons_of_ne (by decide), List.count_cons_of_ne newline]
    exact ih
  | reference c cs _ _ _ _ piece => rw [piece]
  | plain c cs newline _ _ _ piece ih =>
    rw [piece, List.count_cons_of_ne newline]
    exact ih

theorem count_dropWhile_isNameChar (cs : Text) : (cs.dropWhile isNameChar).count '\n' = cs.count '\n' := by
  have parts := congrArg (List.count '\n') (List.takeWhile_append_dropWhile (p := isNameChar) (l := cs))
  have none : (cs.takeWhile isNameChar).count '\n' = 0 := by
    rw [List.count_eq_zero]
    intro mem
    cases List.all_eq_true.mp List.all_takeWhile _ mem
  rwa [List.count_append, none, Nat.zero_add] at parts

/-- The second scanner stands further on in the source of the first one, or at the same place. -/
structure Onward (s s' : Scanner) : Prop where
  line : s.line ≤ s'.line
  last : s'.lastLine = s.lastLine

namespace Onward

variable {s s' s'' : Scanner}

theorem refl (s : Scanner) : Onward s s := ⟨Int.le_refl _, rfl⟩

theorem trans (h : Onward s s') (h' : Onward s' s'') : Onward s s'' :=
  ⟨Int.le_trans h.line h'.line, h'.last.trans h.last⟩

theorem line_le_lastLine (s : Scanner) : s.line ≤ s.lastLine := by
  rw [lastLine]
  omega

theorem line_le (h : Onward s s') : s'.line ≤ s.lastLine := h.last ▸ line_le_lastLine s'

end Onward

/-- Reading has gone onward from the scanner. What was read meets the condition; a fault names the line that was
reached, and nothing else is known about its place. No other failure than a fault comes from reading, unless references
are nested too deeply. -/
def Advances {α : Type} (s : Scanner) (Q : α → Scanner → Prop) : Result α → Prop
  | .ok a s' => Onward s s' ∧ Q a s'
  | .error e s' =>
    Onward s s' ∧ ((∃ cause, e = .fault { cause := cause, line := some s'.line }) ∨ e = .crash .deepNesting)

namespace Advances

variable {α : Type} {s s' : Scanner} {Q R : α → Scanner → Prop} {r : Result α} {a : α} {e : Failure}

theorem fail (h : Onward s s') (cause : Cause) : Advances s Q (s'.fail cause) := ⟨h, .inl ⟨cause, rfl⟩⟩

theorem of_ok (h : Advances s Q r) (ok : r = .ok a s') : Onward s s' ∧ Q a s' := by
  subst ok
  exact h

theorem of_error (h : Advances s Q r) (error : r = .error e s') :
    Onward s s' ∧ ((∃ cause, e = .fault { cause := cause, line := some s'.line }) ∨ e = .crash .deepNesting) := by
  subst error
  exact h

theorem after (h : Advances s' Q r) (onward : Onward s s') (weaker : ∀ a s'', Onward s' s'' → Q a s'' → R a s'') :
    Advances s R r := by
  cases r with
  | ok a s'' => exact ⟨onward.trans h.1, weaker a s'' h.1 h.2⟩
  | error e s'' => exact ⟨onward.trans h.1, h.2⟩

end Advances

theorem readRaw_onward (s : Scanner) : Onward s s.readRaw.2 := by
  refine ⟨?_, s.readRaw_lastLine⟩
  rw [readRaw]
  split
  · exact Int.le_refl _
  · dsimp only
    split <;> omega

theorem skipGap_line_le (comment : Bool) (cs : Text) (line : Int) : line ≤ (skipGap comment cs line).2 := by
  induction cs generalizing comment line with
  | nil => cases comment <;> exact Int.le_refl _
  | cons c cs ih =>
    have same := ih true line
    have next := ih false (line + 1)
    have later := ih false (if c = '\n' then line + 1 else line)
    cases comment with
    | true =>
      rw [skipGap]
      split <;> omega
    | false =>
      rw [skipGap]
      split
      · exact same
      · split
        · refine Int.le_trans ?_ later
          split <;> omega
        · exact Int.le_refl _

theorem afterGap_onward (s : Scanner) : Onward s s.afterGap := ⟨skipGap_line_le false s.rest s.line, s.afterGap_lastLine⟩

theorem readChar_onward (s : Scanner) : Onward s s.readChar.2 := by
  rw [readChar]
  split
  · exact .refl s
  · split
    · exact s.afterGap_onward
    · exact s.readRaw_onward

theorem readFirst_onward (s : Scanner) : Onward s s.readFirst.2 := by
  rw [readFirst]
  split
  · exact s.readRaw_onward
  · exact s.readChar_onward

theorem unread_onward (s : Scanner) (c : Char) (newline : c ≠ '\n') : Onward s (s.unread c) := by
  refine ⟨?_, s.unread_lastLine c⟩
  simp [unread, newline]

theorem Specials.ne_newline {set : Specials} {c : Char} (special : set.contains c = true) : c ≠ '\n' := by
  rintro rfl
  cases set <;> exact absurd special (by decide)

theorem readWord_onward (set : Specials) (s : Scanner) : Onward s (readWord set s).2 := by
  have next (s s₁ : Scanner) (c : Option Char) (char : s.readChar = (c, s₁)) : Onward s s₁ := by
    have onward := s.readChar_onward
    rwa [char] at onward
  fun_induction readWord set s with
  | case1 s s₁ char => exact next s s₁ none char
  | case2 s c s₁ char special => exact (next s s₁ c char).trans (s₁.unread_onward c (Specials.ne_newline special))
  | case3 s c s₁ char special tail ih => exact (next s s₁ c char).trans ih

theorem readPiece_line_le (quote : Quote) (line : Int) (cs : Text) : line ≤ (readPiece quote line cs).line := by
  induction cs using readPiece_induction quote line with
  | escape d ds _ _ _ piece ih =>
    rw [piece]
    exact ih
  | plain c cs _ _ _ _ piece ih =>
    rw [piece]
    exact ih
  | newline cs piece | broken ds piece =>
    rw [piece]
    exact Int.le_add_one (Int.le_refl line)
  | nil piece | close cs _ piece | last piece | dollar ds _ piece | reference c cs _ _ _ _ piece =>
    exact Int.le_of_eq (by rw [piece])

theorem readString_advances (quote : Quote) (s : Scanner) :
    Advances s (fun t _ => t.line = s.line) (readString quote s) := by
  have onward (q : Option Quote) (noted : Bool) :
      Onward s ⟨(readPiece quote s.line s.rest).rest, (readPiece quote s.line s.rest).line, q, noted⟩ :=
    ⟨readPiece_line_le quote s.line s.rest, readPiece_lines quote s.line s.rest⟩
  rw [readString]
  dsimp only
  split
  · exact ⟨onward _ _, rfl⟩
  · exact ⟨onward _ _, rfl⟩
  · exact ⟨onward _ _, rfl⟩
  · exact .fail (onward _ _) _
  · exact .fail (onward _ _) _

theorem readPlainReference_advances (set : Specials) (line : Int) (s : Scanner) :
    Advances s (fun t _ => t.line = line) (readPlainReference set line s) := by
  rw [readPlainReference]
  split
  · exact .fail (.refl s) _
  · next c cs hs =>
    dsimp only
    split
    · exact ⟨s.readRaw_onward, rfl⟩
    · split
      · split
        · exact .fail (.refl s) _
        · exact ⟨⟨Int.le_refl _, by rw [lastLine, lastLine, hs, count_dropWhile_isNameChar]⟩, rfl⟩
      · split
        · exact .fail s.readRaw_onward _
        · exact ⟨s.readRaw_onward.trans (readWord_onward set _), rfl⟩

theorem closeReference_advances (quote : Option Quote) (line : Int) (name : Token) (s : Scanner) :
    Advances s (fun t _ => t.line = line) (closeReference quote line name s) := by
  have onward := s.readRaw_onward
  rw [closeReference]
  split
  · exact .fail (.refl s) _
  · split
    · next s₁ raw =>
      rw [raw] at onward
      exact ⟨⟨onward.line, onward.last⟩, rfl⟩
    · next c s₁ _ raw =>
      rw [raw] at onward
      exact .fail onward _

theorem readToken_advances (set : Specials) (eofAllowed : Bool) (s : Scanner) :
    Advances s (fun t s' => s.line ≤ t.line ∧ t.line ≤ s'.line) (readToken set eofAllowed s) := by
  have next (s s₁ : Scanner) (c : Char) (first : s.readFirst = (some c, s₁)) : Onward s s₁ := by
    have onward := s.readFirst_onward
    rwa [first] at onward
  have opened (s : Scanner) (c : Char) (cs : Text) (rest : s.rest = c :: cs) (newline : c ≠ '\n') (quote : Option Quote)
      (noted : Bool) : Onward s ⟨cs, s.line, quote, noted⟩ :=
    ⟨Int.le_refl _, by rw [lastLine, lastLine, rest, List.count_cons_of_ne newline]⟩
  induction set, eofAllowed, s using readToken_induction with
  | inside set eofAllowed s quote inside plain token =>
    rw [token]
    refine (readString_advances quote s).after (.refl s) fun t s' onward same => ?_
    have := onward.line
    omega
  | opening set eofAllowed s c s₁ quote outside first opens token =>
    rw [token]
    have start := next s s₁ c first
    refine (readString_advances quote s₁).after start fun t s' onward same => ?_
    have := start.line
    have := onward.line
    omega
  | ended set s outside rest token =>
    rw [token]
    exact ⟨.refl s, Int.le_refl _, Int.le_refl _⟩
  | cut set s outside rest token =>
    rw [token]
    exact .fail (.refl s) _
  | deep set eofAllowed s cs rest tooDeep token =>
    rw [token]
    exact ⟨opened s '$' _ rest (by decide) _ _, .inr rfl⟩
  | braced set eofAllowed s cs rest few token ih =>
    rw [token]
    -- what is in the braces starts on the line of the dollar sign
    have start : Onward s { rest := cs, line := s.line } :=
      (opened s '$' _ rest (by decide) none false).trans (opened _ '\x7b' cs rfl (by decide) none false)
    cases inner : readToken .braced false { rest := cs, line := s.line } with
    | ok name s₂ =>
      have onward := start.trans (ih.of_ok inner).1
      refine (closeReference_advances s.quote s.line name s₂).after onward fun t s' closed same => ?_
      have := onward.line
      have := closed.line
      omega
    | error e s₂ =>
      obtain ⟨onward, failure⟩ := ih.of_error inner
      exact ⟨start.trans onward, failure⟩
  | plain set eofAllowed s cs rest unbraced starts token =>
    rw [token]
    have start := opened s '$' cs rest (by decide) s.quote false
    refine (readPlainReference_advances set s.line _).after start fun t s' onward same => ?_
    have : s.line ≤ s'.line := onward.line
    omega
  | special set eofAllowed s c s₁ outside first other unquoted special token =>
    rw [token]
    exact ⟨next s s₁ c first, (next s s₁ c first).line, Int.le_refl _⟩
  | word set eofAllowed s c s₁ outside first other unquoted plain token =>
    rw [token]
    have start := next s s₁ c first
    exact ⟨start.trans (readWord_onward set s₁), start.line, (readWord_onward set s₁).line⟩

theorem readToken_lastLine (set : Specials) (eofAllowed : Bool) (s s' : Scanner) (t : Token)
    (h : readToken set eofAllowed s = .ok t s') : s'.lastLine = s.lastLine :=
  ((readToken_advances set eofAllowed s).of_ok h).1.last

theorem readRawValue_lastLine (s s' : Scanner) (h : (readRawValue s).2 = .ok () s') : s'.lastLine = s.lastLine := by
  fun_induction readRawValue s with
  | case1 => cases h
  | case2 => cases h
  | case3 s t s₁ token =>
    cases h
    exact readToken_lastLine _ _ s s' t token
  | case4 s t s₁ token =>
    cases h
    exact (s₁.unread_lastLine _).trans (readToken_lastLine _ _ s s₁ t token)
  | case5 s t s₁ token _ _ _ ts ending rest ih =>
    rw [rest] at ih
    exact (ih h).trans (readToken_lastLine _ _ s s₁ t token)

/-- If a dollar sign is noted as escaped, it is the next character of an open string. -/
def DollarNext (s : Scanner) : Prop := s.escapedDollar = true → s.quote ≠ none ∧ s.rest.head? = some '$'

theorem DollarNext.of_quote {s : Scanner} (h : s.DollarNext) (outside : s.quote = none) : s.escapedDollar = false := by
  cases noted : s.escapedDollar with
  | false => rfl
  | true => exact absurd outside (h noted).1

theorem readPiece_dollar (quote : Quote) (line : Int) (cs : Text)
    (h : (readPiece quote line cs).ending = .escapedDollar) : (readPiece quote line cs).rest.head? = some '$' := by
  induction cs using readPiece_induction quote line with
  | dollar ds _ piece =>
    rw [piece]
    rfl
  | escape d ds _ _ _ piece ih =>
    rw [piece] at h ⊢
    exact ih h
  | plain c cs _ _ _ _ piece ih =>
    rw [piece] at h ⊢
    exact ih h
  | nil piece | newline cs piece | close cs _ piece | last piece | broken ds piece | reference c cs _ _ _ _ piece =>
    rw [piece] at h
    cases h

theorem dollarNext_of_false {s : Scanner} (noted : s.escapedDollar = false) : s.DollarNext := by
  intro h
  rw [noted] at h
  cases h

theorem readRaw_escapedDollar (s : Scanner) : s.readRaw.2.escapedDollar = s.escapedDollar := by
  rw [readRaw]
  split
  · rfl
  · rfl

theorem readChar_escapedDollar (s : Scanner) : s.readChar.2.escapedDollar = s.escapedDollar := by
  rw [readChar]
  split
  · rfl
  · split
    · rfl
    · exact s.readRaw_escapedDollar

theorem readFirst_escapedDollar (s : Scanner) : s.readFirst.2.escapedDollar = s.escapedDollar := by
  rw [readFirst]
  split
  · exact s.readRaw_escapedDollar
  · exact s.readChar_escapedDollar

theorem readWord_escapedDollar (set : Specials) (s : Scanner) :
    (readWord set s).2.escapedDollar = s.escapedDollar := by
  fun_induction readWord set s with
  | case1 s s₁ next => rw [← s.readChar_escapedDollar, next]
  | case2 s c s₁ next special =>
    rw [← s.readChar_escapedDollar, next]
    rfl
  | case3 s c s₁ next special tail ih => rw [ih, ← s.readChar_escapedDollar, next]

theorem readString_dollarNext (quote : Quote) (s s' : Scanner) (t : Token) (noted : s.escapedDollar = false)
    (h : readString quote s = .ok t s') : s'.DollarNext := by
  rw [readString] at h
  dsimp only at h
  split at h
  · cases h
    exact dollarNext_of_false noted
  · cases h
    exact dollarNext_of_false noted
  · next ending =>
    cases h
    exact fun _ => ⟨by simp, readPiece_dollar quote s.line s.rest ending⟩
  · cases h
  · cases h

theorem readPlainReference_escapedDollar (set : Specials) (line : Int) (s s' : Scanner) (t : Token)
    (h : readPlainReference set line s = .ok t s') : s'.escapedDollar = s.escapedDollar := by
  rw [readPlainReference] at h
  split at h
  · cases h
  · dsimp only at h
    split at h
    · cases h
      exact s.readRaw_escapedDollar
    · split at h
      · split at h
        · cases h
        · cases h
          rfl
      · split at h
        · cases h
        · cases h
          exact (readWord_escapedDollar set _).trans s.readRaw_escapedDollar

theorem closeReference_escapedDollar (quote : Option Quote) (line : Int) (name t : Token) (s s' : Scanner)
    (h : closeReference quote line name s = .ok t s') : name.kind = .word ∧ s'.escapedDollar = s.escapedDollar := by
  rw [closeReference] at h
  split at h
  · cases h
  · next word =>
    split at h
    · next s₁ raw =>
      cases h
      rw [← s.readRaw_escapedDollar, raw]
      exact ⟨not_not.mp word, rfl⟩
    · cases h

theorem readToken_dollarNext (set : Specials) (eofAllowed : Bool) (s s' : Scanner) (t : Token) (start : s.DollarNext)
    (h : readToken set eofAllowed s = .ok t s') : s'.DollarNext := by
  induction set, eofAllowed, s using readToken_induction generalizing t s' with
  | inside set eofAllowed s quote inside plain token =>
    have none : s.escapedDollar = false := by
      cases noted : s.escapedDollar with
      | false => rfl
      | true =>
        -- an escaped dollar sign would have been taken for a reference
        obtain ⟨cs, rest⟩ := List.head?_eq_some_iff.mp (start noted).2
        have unnoted := plain cs rest
        rw [noted] at unnoted
        cases unnoted
    exact readString_dollarNext _ s s' t none (token.symm.trans h)
  | opening set eofAllowed s c s₁ quote outside first opens token =>
    refine readString_dollarNext _ s₁ s' t ?_ (token.symm.trans h)
    rw [← start.of_quote outside, ← s.readFirst_escapedDollar, first]
  | ended set s outside rest token =>
    cases token.symm.trans h
    exact start
  | cut set s outside rest token => cases token.symm.trans h
  | deep set eofAllowed s cs rest tooDeep token => cases token.symm.trans h
  | braced set eofAllowed s cs rest few token ih =>
    obtain ⟨name, s₂, inner, close⟩ := closeBraces_eq_ok (token.symm.trans h)
    obtain ⟨word, same⟩ := closeReference_escapedDollar _ _ _ _ _ _ close
    have next := ih s₂ name (dollarNext_of_false rfl) inner
    have none := next.of_quote (readToken_quote _ _ _ s₂ name inner (.inl word))
    exact dollarNext_of_false (same.trans none)
  | plain set eofAllowed s cs rest unbraced starts token =>
    exact dollarNext_of_false (readPlainReference_escapedDollar _ _ _ s' t (token.symm.trans h))
  | special set eofAllowed s c s₁ outside first other unquoted special token =>
    cases token.symm.trans h
    refine dollarNext_of_false ?_
    rw [← start.of_quote outside, ← s.readFirst_escapedDollar, first]
  | word set eofAllowed s c s₁ outside first other unquoted plain token =>
    cases token.symm.trans h
    refine dollarNext_of_false ((readWord_escapedDollar set s₁).trans ?_)
    rw [← start.of_quote outside, ← s.readFirst_escapedDollar, first]

theorem readRawValue_outside (s s' : Scanner) (start : s.DollarNext) (h : (readRawValue s).2 = .ok () s') :
    s'.quote = none ∧ s'.escapedDollar = false := by
  have ended (s s₁ : Scanner) (t : Token) (start : s.DollarNext) (token : readToken .value false s = .ok t s₁)
      (cs : Text) (special : t.isSpecial cs = true) : s₁.quote = none ∧ s₁.escapedDollar = false := by
    have outside := readToken_quote _ _ s s₁ t token (.inr (isSpecial_kind special))
    exact ⟨outside, (readToken_dollarNext _ _ s s₁ t start token).of_quote outside⟩
  fun_induction readRawValue s with
  | case1 => cases h
  | case2 => cases h
  | case3 s t s₁ token _ special =>
    cases h
    exact ended s s' t start token _ special
  | case4 s t s₁ token _ _ special =>
    cases h
    exact ended s s₁ t start token _ special
  | case5 s t s₁ token _ _ _ ts ending rest ih =>
    rw [rest] at ih
    exact ih (readToken_dollarNext _ _ s s₁ t start token) h

theorem readRawValue_whole (text : Text) (s : Scanner) (oneLine : '\n' ∉ text) (whole : s.rest = [])
    (h : (readRawValue (.ofSource text)).2 = .ok () s) : s = { rest := [] } := by
  obtain ⟨outside, none⟩ := readRawValue_outside _ s (dollarNext_of_false rfl) h
  have first : s.line = 1 := by
    have same := readRawValue_lastLine _ s h
    simpa [lastLine, whole, ofSource, List.count_eq_zero.mpr oneLine] using same
  obtain ⟨rest, line, quote, escapedDollar⟩ := s
  cases whole
  cases outside
  cases none
  cases first
  rfl

end Scanner
end DeviceProtocol
