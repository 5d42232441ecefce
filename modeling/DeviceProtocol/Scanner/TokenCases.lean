import DeviceProtocol.Scanner
set_option autoImplicit false

namespace DeviceProtocol.Scanner

theorem readFirst_nil (s : Scanner) (rest : s.rest = []) : s.readFirst = (none, s) := by
  simp [readFirst, readRaw, readChar, rest]

theorem readFirst_none (s s' : Scanner) (h : s.readFirst = (none, s')) : s' = s ∧ s.rest = [] := by
  unfold readFirst readChar readRaw at h
  split at h <;> split at h <;> simp_all
  split at h <;> simp_all

theorem readFirst_dollar (s : Scanner) (cs : Text) (rest : s.rest = '$' :: cs) :
    s.readFirst = (some '$', { s with rest := cs }) := by
  have gap : opensGap '$' = false := by decide
  have raw : s.readRaw = (some '$', { s with rest := cs }) := by simp [readRaw, rest]
  rw [readFirst]
  split
  · exact raw
  · simp [readChar, rest, gap, raw]

theorem rest_of_readFirst_dollar (s s₁ : Scanner) (first : s.readFirst = (some '$', s₁)) :
    s.rest = '$' :: s₁.rest := by
  have raw (h : s.readRaw = (some '$', s₁)) : s.rest = '$' :: s₁.rest := by
    unfold readRaw at h
    split at h
    · cases h
    · next c cs rest =>
      cases h
      exact rest
  rw [readFirst] at first
  split at first
  · exact raw first
  · unfold readChar at first
    split at first
    · cases first
    · split at first
      · cases first
      · exact raw first

theorem openBraces_cons_cons (c d : Char) (cs : Text) :
    openBraces (c :: d :: cs) = if c = '\x7b' then if d = '$' then openBraces cs + 1 else 1 else 0 := by
  by_cases brace : c = '\x7b'
  · by_cases dollar : d = '$'
    · subst brace dollar
      rfl
    · subst brace
      simp [openBraces, dollar]
  · simp [openBraces, brace]

theorem closeBraces_eq_ok {quote : Option Quote} {line : Int} {r : Result Token} {t : Token} {s' : Scanner}
    (h : closeBraces quote line r = .ok t s') :
    ∃ name s₂, r = .ok name s₂ ∧ closeReference quote line name s₂ = .ok t s' := by
  cases r with
  | ok name s₂ => exact ⟨name, s₂, rfl, h⟩
  | error e s₂ => cases h

/-- A dollar sign that comes next inside quotes is a part of the string. -/
def PlainNext (s : Scanner) : Prop := ∀ cs, s.rest = '$' :: cs → (s.escapedDollar || startsReference cs) = false

section

variable (set : Specials) (eofAllowed : Bool) (s : Scanner)

theorem readToken_of_end (rest : s.rest = []) (outside : s.quote = none) :
    readToken set eofAllowed s =
      if eofAllowed then .ok ⟨.eof, [], s.line, none⟩ s else s.fail .endInsideBlock := by
  rw [readToken]
  split <;> rename_i first <;> cases (s.readFirst_nil rest).symm.trans first
  rw [outside]

theorem readToken_of_other (c : Char) (s₁ : Scanner) (first : s.readFirst = (some c, s₁)) (other : c ≠ '$') :
    (∀ quote, s.quote = some quote → readToken set eofAllowed s = readString quote s) ∧
    (∀ quote, s.quote = none → Quote.ofChar? c = some quote → readToken set eofAllowed s = readString quote s₁) ∧
    (s.quote = none → Quote.ofChar? c = none → readToken set eofAllowed s =
      if set.contains c then .ok ⟨.special, [c], s₁.line, none⟩ s₁
      else .ok ⟨.word, lowerChar c ++ (readWord set s₁).1, s₁.line, none⟩ (readWord set s₁).2) := by
  rw [readToken]
  split <;> rename_i h <;> cases first.symm.trans h
  rw [if_neg (by simp [other])]
  refine ⟨fun quote inside => ?_, fun quote outside opens => ?_, fun outside unquoted => ?_⟩
  · rw [inside]
  · rw [outside, opens]
  · rw [outside, unquoted]

theorem readToken_of_inside (quote : Quote) (inside : s.quote = some quote) (plain : s.PlainNext) :
    readToken set eofAllowed s = readString quote s := by
  cases rest : s.rest with
  | nil =>
    rw [readToken]
    split <;> rename_i first <;> cases (s.readFirst_nil rest).symm.trans first
    rw [inside]
  | cons c cs =>
    have first : s.readFirst = (some c, { s with rest := cs, line := if c = '\n' then s.line + 1 else s.line }) := by
      simp [readFirst, inside, readRaw, rest]
    by_cases dollar : c = '$'
    · subst dollar
      rw [readToken]
      split <;> rename_i h <;> cases first.symm.trans h
      have part := plain cs rest
      rw [if_neg (by simp_all), inside]
    · exact (readToken_of_other set eofAllowed s c _ first dollar).1 quote inside

theorem readToken_of_quote (c : Char) (s₁ : Scanner) (quote : Quote) (outside : s.quote = none)
    (first : s.readFirst = (some c, s₁)) (opens : Quote.ofChar? c = some quote) :
    readToken set eofAllowed s = readString quote s₁ := by
  have other : c ≠ '$' := by
    rintro rfl
    cases opens
  exact (readToken_of_other set eofAllowed s c s₁ first other).2.1 quote outside opens

theorem readToken_of_special (c : Char) (s₁ : Scanner) (outside : s.quote = none) (first : s.readFirst = (some c, s₁))
    (other : c ≠ '$') (unquoted : Quote.ofChar? c = none) (special : set.contains c = true) :
    readToken set eofAllowed s = .ok ⟨.special, [c], s₁.line, none⟩ s₁ := by
  rw [(readToken_of_other set eofAllowed s c s₁ first other).2.2 outside unquoted, if_pos special]

theorem readToken_of_word (c : Char) (s₁ : Scanner) (outside : s.quote = none) (first : s.readFirst = (some c, s₁))
    (other : c ≠ '$') (unquoted : Quote.ofChar? c = none) (plain : set.contains c = false) :
    readToken set eofAllowed s =
      .ok ⟨.word, lowerChar c ++ (readWord set s₁).1, s₁.line, none⟩ (readWord set s₁).2 := by
  rw [(readToken_of_other set eofAllowed s c s₁ first other).2.2 outside unquoted, if_neg (by simp [plain])]

theorem readToken_of_braces (cs : Text) (rest : s.rest = '$' :: '\x7b' :: cs) :
    readToken set eofAllowed s =
      if maxNesting < openBraces ('\x7b' :: cs) then .error (.crash .deepNesting) { s with rest := '\x7b' :: cs }
      else closeBraces s.quote s.line (readToken .braced false { rest := cs, line := s.line }) := by
  have braces : startsReference ('\x7b' :: cs) = true := by simp [startsReference]
  rw [readToken]
  split <;> rename_i h <;> cases (s.readFirst_dollar _ rest).symm.trans h
  rw [if_pos (by simp [braces])]
  split
  · next ds same =>
    cases same
    rfl
  · next unbraced => exact absurd rfl (unbraced cs)

theorem readToken_of_dollar (cs : Text) (rest : s.rest = '$' :: cs) (unbraced : cs.head? ≠ some '\x7b')
    (starts : (s.quote.isNone || s.escapedDollar || startsReference cs) = true) :
    readToken set eofAllowed s = readPlainReference set s.line { s with rest := cs, escapedDollar := false } := by
  rw [readToken]
  split <;> rename_i h <;> cases (s.readFirst_dollar _ rest).symm.trans h
  rw [if_pos (by simpa using starts)]
  split
  · next ds same =>
    cases same
    exact absurd rfl unbraced
  · rfl

end

/-- Reading a token has one of these outcomes. -/
theorem readToken_induction {motive : Specials → Bool → Scanner → Prop}
    (inside : ∀ set eofAllowed s quote, s.quote = some quote → s.PlainNext →
      readToken set eofAllowed s = readString quote s → motive set eofAllowed s)
    (opening : ∀ set eofAllowed s c s₁ quote, s.quote = none → s.readFirst = (some c, s₁) →
      Quote.ofChar? c = some quote → readToken set eofAllowed s = readString quote s₁ → motive set eofAllowed s)
    (ended : ∀ set s, s.quote = none → s.rest = [] →
      readToken set true s = .ok ⟨.eof, [], s.line, none⟩ s → motive set true s)
    (cut : ∀ set s, s.quote = none → s.rest = [] →
      readToken set false s = s.fail .endInsideBlock → motive set false s)
    (deep : ∀ set eofAllowed s cs, s.rest = '$' :: '\x7b' :: cs → maxNesting < openBraces ('\x7b' :: cs) →
      readToken set eofAllowed s = .error (.crash .deepNesting) { s with rest := '\x7b' :: cs } →
      motive set eofAllowed s)
    (braced : ∀ set eofAllowed s cs, s.rest = '$' :: '\x7b' :: cs → openBraces ('\x7b' :: cs) ≤ maxNesting →
      readToken set eofAllowed s =
        closeBraces s.quote s.line (readToken .braced false { rest := cs, line := s.line }) →
      motive .braced false { rest := cs, line := s.line } → motive set eofAllowed s)
    (plain : ∀ set eofAllowed s cs, s.rest = '$' :: cs → cs.head? ≠ some '\x7b' →
      (s.quote.isNone || s.escapedDollar || startsReference cs) = true →
      readToken set eofAllowed s = readPlainReference set s.line { s with rest := cs, escapedDollar := false } →
      motive set eofAllowed s)
    (special : ∀ set eofAllowed s c s₁, s.quote = none → s.readFirst = (some c, s₁) → c ≠ '$' →
      Quote.ofChar? c = none → set.contains c = true →
      readToken set eofAllowed s = .ok ⟨.special, [c], s₁.line, none⟩ s₁ → motive set eofAllowed s)
    (word : ∀ set eofAllowed s c s₁, s.quote = none → s.readFirst = (some c, s₁) → c ≠ '$' →
      Quote.ofChar? c = none → set.contains c = false →
      readToken set eofAllowed s =
        .ok ⟨.word, lowerChar c ++ (readWord set s₁).1, s₁.line, none⟩ (readWord set s₁).2 →
      motive set eofAllowed s)
    (set : Specials) (eofAllowed : Bool) (s : Scanner) : motive set eofAllowed s := by
  -- on the length of what is left: only the name in braces is read by reading another token
  induction length : s.rest.length using Nat.strongRecOn generalizing set eofAllowed s with
  | ind n ih =>
    cases first : s.readFirst with
    | mk next s₁ =>
      cases next with
      | none =>
        obtain ⟨rfl, rest⟩ := readFirst_none s _ first
        cases quoted : s₁.quote with
        | some quote =>
          have plainNext : s₁.PlainNext := by
            intro cs dollar
            cases rest.symm.trans dollar
          exact inside _ _ _ quote quoted plainNext (readToken_of_inside _ _ _ quote quoted plainNext)
        | none =>
          have token := readToken_of_end set eofAllowed s₁ rest quoted
          cases eofAllowed with
          | true => exact ended set s₁ quoted rest token
          | false => exact cut set s₁ quoted rest token
      | some c =>
        by_cases dollar : c = '$'
        · subst dollar
          have rest := rest_of_readFirst_dollar s s₁ first
          by_cases braces : s₁.rest.head? = some '\x7b'
          · obtain ⟨cs, opened⟩ := List.head?_eq_some_iff.mp braces
            rw [opened] at rest
            have token := readToken_of_braces set eofAllowed s cs rest
            by_cases tooDeep : maxNesting < openBraces ('\x7b' :: cs)
            · exact deep set eofAllowed s cs rest tooDeep (token.trans (if_pos tooDeep))
            · refine braced set eofAllowed s cs rest (Nat.le_of_not_lt tooDeep) (token.trans (if_neg tooDeep)) ?_
              refine ih cs.length ?_ .braced false _ rfl
              rw [← length, rest]
              exact Nat.lt_succ_of_lt (Nat.lt_succ_self _)
          · cases starts : s.quote.isNone || s.escapedDollar || startsReference s₁.rest with
            | true => exact plain _ _ s _ rest braces starts (readToken_of_dollar _ _ s _ rest braces starts)
            | false =>
              simp only [Bool.or_eq_false_iff, Option.isNone_eq_false_iff, Option.isSome_iff_exists] at starts
              obtain ⟨⟨⟨quote, quoted⟩, noted⟩, other⟩ := starts
              have plainNext : s.PlainNext := by
                intro cs same
                cases rest.symm.trans same
                rw [noted, other]
                rfl
              exact inside _ _ s quote quoted plainNext (readToken_of_inside _ _ s quote quoted plainNext)
        · cases quoted : s.quote with
          | some quote =>
            have plainNext : s.PlainNext := by
              intro cs same
              rw [readFirst_dollar s cs same] at first
              cases first
              exact absurd rfl dollar
            exact inside _ _ s quote quoted plainNext (readToken_of_inside _ _ s quote quoted plainNext)
          | none =>
            cases opens : Quote.ofChar? c with
            | some quote =>
              exact opening _ _ s c s₁ quote quoted first opens (readToken_of_quote _ _ s c s₁ quote quoted first opens)
            | none =>
              cases contained : set.contains c with
              | true =>
                exact special _ _ s c s₁ quoted first dollar opens contained
                  (readToken_of_special _ _ s c s₁ quoted first dollar opens contained)
              | false =>
                exact word _ _ s c s₁ quoted first dollar opens contained
                  (readToken_of_word _ _ s c s₁ quoted first dollar opens contained)

end DeviceProtocol.Scanner
