import DeviceProtocol.Proofs.UnrelatedProtocols
set_option autoImplicit false

/-!
Text behind a source. What has been read to its end is read in the same way if more text follows, unless reading it came
to the end of the source: then the text that follows may prolong the last word or the last gap. No statement ends in
this way, so statements that were read stay what they are.
-/
namespace DeviceProtocol

namespace Scanner

/-- The scanner with more text behind its own. -/
def followedBy (s : Scanner) (b : Text) : Scanner := { s with rest := s.rest ++ b }

/-- Nothing is left, or a blank that was put back for a gap to which more text may belong. -/
def Spent (s : Scanner) : Prop := s.rest = [] ∨ s.rest = [' ']

variable (b : Text)

@[simp] theorem followedBy_rest (s : Scanner) : (s.followedBy b).rest = s.rest ++ b := rfl

@[simp] theorem followedBy_line (s : Scanner) : (s.followedBy b).line = s.line := rfl

@[simp] theorem followedBy_quote (s : Scanner) : (s.followedBy b).quote = s.quote := rfl

@[simp] theorem followedBy_escapedDollar (s : Scanner) : (s.followedBy b).escapedDollar = s.escapedDollar := rfl

theorem skipGap_followedBy (comment : Bool) (cs : Text) (line : Int) (more : (skipGap comment cs line).1 ≠ []) :
    skipGap comment (cs ++ b) line = ((skipGap comment cs line).1 ++ b, (skipGap comment cs line).2) := by
  induction cs generalizing comment line with
  | nil => exact absurd (by cases comment <;> rfl) more
  | cons c cs ih =>
    cases comment with
    | true =>
      simp only [List.cons_append, skipGap] at more ⊢
      split at more
      · next newline => simp only [newline, if_true, ih _ _ more]
      · next newline => simp only [newline, if_false, ih _ _ more]
    | false =>
      simp only [List.cons_append, skipGap] at more ⊢
      split at more
      · next comment => simp only [comment, if_true, ih _ _ more]
      · next comment =>
        simp only [comment, if_false]
        split at more
        · next space => simp only [space, if_true, ih _ _ more]
        · next space => simp only [space, if_false, List.cons_append, Bool.false_eq_true]

theorem afterGap_followedBy (s : Scanner) (more : s.afterGap.rest ≠ []) :
    (s.followedBy b).afterGap = s.afterGap.followedBy b := by
  simp only [afterGap, followedBy, skipGap_followedBy b false s.rest s.line more]

theorem rest_of_readRaw (s s' : Scanner) (c : Char) (h : s.readRaw = (some c, s')) : s.rest = c :: s'.rest := by
  obtain ⟨rest, line, quote, escapedDollar⟩ := s
  cases rest with
  | nil => cases h
  | cons d ds =>
    cases h
    rfl

theorem readRaw_followedBy (s s' : Scanner) (c : Char) (h : s.readRaw = (some c, s')) :
    (s.followedBy b).readRaw = (some c, s'.followedBy b) := by
  obtain ⟨rest, line, quote, escapedDollar⟩ := s
  cases rest with
  | nil => cases h
  | cons d ds =>
    cases h
    rfl

theorem readChar_followedBy (s s' : Scanner) (c : Char) (h : s.readChar = (some c, s'))
    (more : c = ' ' → s'.rest ≠ []) : (s.followedBy b).readChar = (some c, s'.followedBy b) := by
  cases hs : s.rest with
  | nil => simp [readChar, hs] at h
  | cons d ds =>
    have behind : (s.followedBy b).rest = d :: (ds ++ b) := by simp [followedBy, hs]
    simp only [readChar, hs] at h
    simp only [readChar, behind]
    cases gap : opensGap d with
    | true =>
      simp only [gap, if_true] at h ⊢
      cases h
      rw [afterGap_followedBy b s (more rfl)]
    | false =>
      simp only [gap, Bool.false_eq_true, if_false] at h ⊢
      exact readRaw_followedBy b s s' c h

theorem readWord_nil (set : Specials) (s : Scanner) (h : s.rest = []) : readWord set s = ([], s) := by
  have char : s.readChar = (none, s) := by simp [readChar, h]
  rw [readWord]
  split <;> rename_i hc <;> cases char.symm.trans hc
  rfl

theorem readWord_of_char (set : Specials) (s s' : Scanner) (c : Char) (h : s.readChar = (some c, s')) :
    readWord set s =
      if set.contains c then ([], s'.unread c) else (lowerChar c ++ (readWord set s').1, (readWord set s').2) := by
  rw [readWord]
  split <;> rename_i hc <;> cases h.symm.trans hc
  rfl

theorem readWord_followedBy (set : Specials) (s : Scanner) (more : ¬ Spent (readWord set s).2) :
    readWord set (s.followedBy b) = ((readWord set s).1, (readWord set s).2.followedBy b) := by
  fun_induction readWord set s with
  | case1 s s' h =>
    have end_ := rest_of_readChar_none s s' h
    simp only [readChar, end_] at h
    cases h
    exact absurd (.inl end_) more
  | case2 s c s' h special =>
    have char := readChar_followedBy b s s' c h fun blank none => more (.inr (by simp [unread, blank, none]))
    rw [readWord_of_char set _ _ c char, if_pos special]
    rfl
  | case3 s c s' h special tail ih =>
    have char := readChar_followedBy b s s' c h fun _ none =>
      more (.inl (by simp only [tail, readWord_nil set s' none]; exact none))
    rw [readWord_of_char set _ _ c char, if_neg special, ih more]

theorem startsReference_append (cs : Text) (h : cs ≠ []) : startsReference (cs ++ b) = startsReference cs := by
  cases cs with
  | nil => exact absurd rfl h
  | cons c cs => rfl

theorem readPiece_cons (quote : Quote) (line : Int) (c : Char) (cs : Text) :
    readPiece quote line (c :: cs) =
      if c = '\n' then ⟨[], .unterminated, cs, line + 1⟩
      else if c = quote.char then ⟨[], .closed, cs, line⟩
      else if c = '\\' then
        match cs with
        | [] => ⟨[], .backslash, [], line⟩
        | d :: ds =>
          if d = '$' then ⟨[], .escapedDollar, d :: ds, line⟩
          else if d = '\n' then ⟨[], .backslash, ds, line + 1⟩
          else (readPiece quote line ds).push ['\\', d]
      else if c = '$' && startsReference cs then ⟨[], .reference, c :: cs, line⟩
      else (readPiece quote line cs).push [c] := by
  rw [readPiece.eq_def]
  rfl

theorem readPiece_char (quote : Quote) (line : Int) (c : Char) (cs : Text) (newline : c ≠ '\n') (close : c ≠ quote.char)
    (backslash : c ≠ '\\') (unreferring : c = '$' → startsReference cs = false) :
    readPiece quote line (c :: cs) = (readPiece quote line cs).push [c] := by
  have plain : ¬ (c = '$' && startsReference cs) = true := by
    simp only [Bool.and_eq_true, decide_eq_true_eq, not_and, Bool.not_eq_true]
    exact unreferring
  rw [readPiece_cons, if_neg newline, if_neg close, if_neg backslash, if_neg plain]

theorem readPiece_induction (quote : Quote) (line : Int) {P : Text → Prop}
    (nil : readPiece quote line [] = ⟨[], .unterminated, [], line⟩ → P [])
    (newline : ∀ cs, readPiece quote line ('\n' :: cs) = ⟨[], .unterminated, cs, line + 1⟩ → P ('\n' :: cs))
    (close : ∀ cs, quote.char ≠ '\n' → readPiece quote line (quote.char :: cs) = ⟨[], .closed, cs, line⟩ →
      P (quote.char :: cs))
    (last : readPiece quote line ['\\'] = ⟨[], .backslash, [], line⟩ → P ['\\'])
    (dollar : ∀ ds, '\\' ≠ quote.char →
      readPiece quote line ('\\' :: '$' :: ds) = ⟨[], .escapedDollar, '$' :: ds, line⟩ → P ('\\' :: '$' :: ds))
    (broken : ∀ ds, readPiece quote line ('\\' :: '\n' :: ds) = ⟨[], .backslash, ds, line + 1⟩ →
      P ('\\' :: '\n' :: ds))
    (escape : ∀ d ds, '\\' ≠ quote.char → d ≠ '$' → d ≠ '\n' →
      readPiece quote line ('\\' :: d :: ds) = (readPiece quote line ds).push ['\\', d] → P ds → P ('\\' :: d :: ds))
    (reference : ∀ c cs, c ≠ '\n' → c ≠ quote.char → c ≠ '\\' → (c = '$' && startsReference cs) = true →
      readPiece quote line (c :: cs) = ⟨[], .reference, c :: cs, line⟩ → P (c :: cs))
    (plain : ∀ c cs, c ≠ '\n' → c ≠ quote.char → c ≠ '\\' → ¬ (c = '$' && startsReference cs) = true →
      readPiece quote line (c :: cs) = (readPiece quote line cs).push [c] → P cs → P (c :: cs))
    (cs : Text) : P cs := by
  -- an escape takes two characters at once, so the induction is on the length
  induction length : cs.length using Nat.strongRecOn generalizing cs with
  | ind n ih =>
    cases cs with
    | nil => exact nil rfl
    | cons c cs =>
      have piece := readPiece_cons quote line c cs
      by_cases hn : c = '\n'
      · rw [if_pos hn] at piece
        subst hn
        exact newline cs piece
      rw [if_neg hn] at piece
      by_cases hc : c = quote.char
      · rw [if_pos hc] at piece
        subst hc
        exact close cs hn piece
      rw [if_neg hc] at piece
      by_cases hb : c = '\\'
      · rw [if_pos hb] at piece
        subst hb
        cases cs with
        | nil => exact last piece
        | cons d ds =>
          by_cases hd : d = '$'
          · subst hd
            exact dollar ds hc piece
          by_cases hl : d = '\n'
          · subst hl
            exact broken ds piece
          simp only [hd, hl, if_false] at piece
          exact escape d ds hc hd hl piece (ih ds.length (by simp only [← length, List.length_cons]; omega) ds rfl)
      rw [if_neg hb] at piece
      by_cases hr : (c = '$' && startsReference cs) = true
      · rw [if_pos hr] at piece
        exact reference c cs hn hc hb hr piece
      rw [if_neg hr] at piece
      exact plain c cs hn hc hb hr piece (ih cs.length (by simp only [← length, List.length_cons]; omega) cs rfl)

theorem readPiece_followedBy (quote : Quote) (line : Int) (cs : Text)
    (terminated : (readPiece quote line cs).ending ≠ .unterminated)
    (complete : (readPiece quote line cs).ending ≠ .backslash) :
    readPiece quote line (cs ++ b) =
      { readPiece quote line cs with rest := (readPiece quote line cs).rest ++ b } := by
  induction cs using readPiece_induction quote line with
  | nil piece => exact absurd (by rw [piece]) terminated
  | newline cs piece => exact absurd (by rw [piece]) terminated
  | last piece => exact absurd (by rw [piece]) complete
  | broken ds piece => exact absurd (by rw [piece]) complete
  | close cs newline piece => simp [piece, readPiece_cons, newline]
  | dollar ds close piece => simp [piece, readPiece_cons, close]
  | escape d ds close dollar newline piece ih =>
    rw [piece] at terminated complete ⊢
    simp only [List.cons_append, readPiece_cons quote line '\\', close, dollar, newline, if_false, if_true,
      show ('\\' = '\n') = False by decide, ih terminated complete]
    rfl
  | reference c cs newline close backslash reference piece =>
    have some : cs ≠ [] := by
      rintro rfl
      simp [startsReference] at reference
    simp only [piece, List.cons_append, readPiece_cons, newline, close, backslash, if_false,
      startsReference_append b cs some, reference, if_true]
  | plain c cs newline close backslash reference piece ih =>
    rw [piece] at terminated complete ⊢
    have some : cs ≠ [] := by
      rintro rfl
      exact terminated rfl
    simp only [List.cons_append, readPiece_cons quote line c, newline, close, backslash, if_false,
      startsReference_append b cs some, reference, ih terminated complete]
    rfl

theorem readString_followedBy (quote : Quote) (s s' : Scanner) (t : Token) (h : readString quote s = .ok t s') :
    readString quote (s.followedBy b) = .ok t (s'.followedBy b) := by
  have piece := readPiece_followedBy b quote s.line s.rest
  cases ending : (readPiece quote s.line s.rest).ending <;> simp only [readString, ending] at h <;> cases h
  all_goals simp [readString, followedBy, piece, ending]

theorem takeWhile_followedBy (p : Char → Bool) (cs : Text) (left : cs.dropWhile p ≠ []) :
    (cs ++ b).takeWhile p = cs.takeWhile p ∧ (cs ++ b).dropWhile p = cs.dropWhile p ++ b := by
  have parts := congrArg List.length (List.takeWhile_append_dropWhile (p := p) (l := cs))
  have some := List.length_pos_iff.mpr left
  rw [List.length_append] at parts
  rw [List.takeWhile_append, if_neg (by omega), List.dropWhile_append, if_neg (by simpa using left)]
  exact ⟨rfl, rfl⟩

theorem readPlainReference_followedBy_of_ends (set : Specials) (line : Int) (s s' : Scanner) (t : Token)
    (h : readPlainReference set line s = .ok t s')
    (name : s'.rest = s.rest.dropWhile isNameChar → s'.rest ≠ [])
    (word : ∀ c, s.rest.head? = some c → (set.contains c || isSpace c) = false → s' = (readWord set s.readRaw.2).2 →
      readWord set (s.readRaw.2.followedBy b) = ((readWord set s.readRaw.2).1, s'.followedBy b)) :
    readPlainReference set line (s.followedBy b) = .ok t (s'.followedBy b) := by
  obtain ⟨rest, at_, quote, escapedDollar⟩ := s
  cases rest with
  | nil => cases h
  | cons c cs =>
    simp only [readPlainReference, followedBy, List.cons_append, readRaw] at h word ⊢
    split at h
    · next digit =>
      cases h
      simp [digit]
    · next digit =>
      simp only [digit, if_false, Bool.false_eq_true]
      split at h
      · next quoted =>
        split at h
        · cases h
        · next some =>
          cases h
          obtain ⟨take, drop⟩ := takeWhile_followedBy b isNameChar (c :: cs) (name rfl)
          rw [List.cons_append] at take drop
          simp only [quoted, take, drop, some, if_true, if_false, Bool.false_eq_true]
      · next quoted =>
        simp only [quoted, if_false, Bool.false_eq_true]
        split at h
        · cases h
        · next plain =>
          cases h
          simp only [plain, if_false, Bool.false_eq_true]
          rw [word c rfl (by simpa using plain) rfl]

theorem readPlainReference_followedBy (set : Specials) (line : Int) (s s' : Scanner) (t : Token)
    (h : readPlainReference set line s = .ok t s') (more : ¬ Spent s') :
    readPlainReference set line (s.followedBy b) = .ok t (s'.followedBy b) := by
  refine readPlainReference_followedBy_of_ends b set line s s' t h (fun _ none => more (.inl none)) ?_
  rintro c - - rfl
  exact readWord_followedBy b set _ more

theorem closeReference_followedBy (quote : Option Quote) (line : Int) (name t : Token) (s s' : Scanner)
    (h : closeReference quote line name s = .ok t s') :
    closeReference quote line name (s.followedBy b) = .ok t (s'.followedBy b) := by
  rw [closeReference] at h ⊢
  split at h
  · cases h
  · next word =>
    rw [if_neg word]
    split at h
    · next s₁ hc =>
      cases h
      rw [readRaw_followedBy b s s₁ _ hc]
      rfl
    · cases h

theorem closeReference_not_spent (quote : Option Quote) (line : Int) (name t : Token) (s s' : Scanner)
    (h : closeReference quote line name s = .ok t s') : ¬ Spent s := by
  rw [closeReference] at h
  split at h
  · cases h
  · split at h
    · next s₁ hc =>
      rintro (hs | hs) <;> simp [readRaw, hs] at hc
    · cases h

theorem readFirst_followedBy (s s' : Scanner) (c : Char) (h : s.readFirst = (some c, s'))
    (more : c = ' ' → s.quote = none → s'.rest ≠ []) :
    (s.followedBy b).readFirst = (some c, s'.followedBy b) := by
  rw [readFirst] at h ⊢
  split at h
  · next inside =>
    rw [if_pos (show (s.followedBy b).quote.isSome = true from inside)]
    exact readRaw_followedBy b s s' c h
  · next outside =>
    rw [if_neg (show ¬ (s.followedBy b).quote.isSome = true from outside)]
    exact readChar_followedBy b s s' c h fun blank => more blank (by simpa using outside)

theorem openBraces_followedBy (cs : Text) (line : Int) (name : Token) (s' : Scanner)
    (h : readToken .braced false { rest := cs, line := line } = .ok name s') :
    openBraces ('\x7b' :: (cs ++ b)) = openBraces ('\x7b' :: cs) := by
  -- a reference that is read ends, so no text behind opens more braces in it
  induction length : cs.length using Nat.strongRecOn generalizing cs line name s' with
  | ind n ih =>
    cases cs with
    | nil => cases (readToken_of_end .braced false { rest := [], line := line } rfl rfl).symm.trans h
    | cons d ds =>
      by_cases dollar : d = '$'
      · subst dollar
        have inside : openBraces (ds ++ b) = openBraces ds := by
          cases ds with
          | nil => cases (readToken_of_dollar .braced false _ [] rfl (by simp) rfl).symm.trans h
          | cons e es =>
            by_cases brace : e = '\x7b'
            · subst brace
              have token := (readToken_of_braces .braced false _ es rfl).symm.trans h
              split at token
              · cases token
              · obtain ⟨inner, s₂, read, -⟩ := closeBraces_eq_ok token
                exact ih es.length (by simp only [← length, List.length_cons]; omega) es line inner s₂ read rfl
            · simp [openBraces, brace]
        simp only [List.cons_append, openBraces_cons_cons, inside]
      · simp [openBraces_cons_cons, dollar]

theorem readToken_followedBy_of_ends (set : Specials) (eofAllowed : Bool) (s s' : Scanner) (t : Token)
    (h : readToken set eofAllowed s = .ok t s') (more : t.kind ≠ .eof)
    (next : ∀ c s₁, s.readFirst = (some c, s₁) → (s.followedBy b).readFirst = (some c, s₁.followedBy b))
    (braced : ∀ (u u' : Scanner) (name : Token), u.rest.length < s.rest.length → readToken .braced false u = .ok name u' →
      ¬ Spent u' → readToken .braced false (u.followedBy b) = .ok name (u'.followedBy b))
    (reference : ∀ u : Scanner, u.rest = s.readFirst.2.rest → readPlainReference set u.line u = .ok t s' →
      readPlainReference set u.line (u.followedBy b) = .ok t (s'.followedBy b))
    (word : ∀ c s₁, s.readFirst = (some c, s₁) → s.quote = none → set.contains c = false → t.kind = .word →
      s' = (readWord set s₁).2 → readWord set (s₁.followedBy b) = ((readWord set s₁).1, s'.followedBy b)) :
    readToken set eofAllowed (s.followedBy b) = .ok t (s'.followedBy b) := by
  induction set, eofAllowed, s using readToken_induction with
  | inside set eofAllowed s quote inside plain token =>
    have string := token.symm.trans h
    have plain' : (s.followedBy b).PlainNext := by
      intro cs dollar
      rw [followedBy_rest] at dollar
      cases hs : s.rest with
      | nil => simp [readString, hs, readPiece, fail] at string
      | cons c ds =>
        rw [hs, List.cons_append, List.cons.injEq] at dollar
        obtain ⟨rfl, rfl⟩ := dollar
        -- A dollar at the very end is text of a string that is not closed.
        have some : ds ≠ [] := by
          rintro rfl
          cases quote <;> simp [readString, hs, readPiece, startsReference, StringPiece.push, Quote.char, fail] at string
        rw [startsReference_append b ds some]
        exact plain ds hs
    rw [readToken_of_inside set eofAllowed (s.followedBy b) quote inside plain']
    exact readString_followedBy b quote s s' t string
  | opening set eofAllowed s c s₁ quote outside first opens token =>
    rw [readToken_of_quote set eofAllowed (s.followedBy b) c (s₁.followedBy b) quote outside (next c s₁ first) opens]
    exact readString_followedBy b quote s₁ s' t (token.symm.trans h)
  | ended set s outside rest token =>
    cases token.symm.trans h
    exact absurd rfl more
  | cut set s outside rest token => cases token.symm.trans h
  | deep set eofAllowed s cs rest tooDeep token => cases token.symm.trans h
  | braced set eofAllowed s cs rest few token ih =>
    obtain ⟨name, s₂, inner, close⟩ := closeBraces_eq_ok (token.symm.trans h)
    have rest' : (s.followedBy b).rest = '$' :: '\x7b' :: (cs ++ b) := by simp [rest]
    have few' : ¬ maxNesting < openBraces ('\x7b' :: (cs ++ b)) := by
      rw [openBraces_followedBy b cs s.line name s₂ inner]
      exact Nat.not_lt_of_le few
    have shorter : cs.length < s.rest.length := by
      rw [rest]
      exact Nat.lt_succ_of_lt (Nat.lt_succ_self _)
    have inner' := braced { rest := cs, line := s.line } s₂ name shorter inner (closeReference_not_spent _ _ _ _ _ _ close)
    rw [readToken_of_braces set eofAllowed _ (cs ++ b) rest', if_neg few']
    simp only [followedBy] at inner'
    simp only [followedBy_line, followedBy_quote, inner']
    exact closeReference_followedBy b s.quote s.line name t s₂ s' close
  | plain set eofAllowed s cs rest unbraced starts token =>
    have read := token.symm.trans h
    have rest' : (s.followedBy b).rest = '$' :: (cs ++ b) := by simp [rest]
    have behind : cs ≠ [] := by
      rintro rfl
      simpa using (readPlainReference_ok set s.line _ s' t read).2
    have unbraced' : (cs ++ b).head? ≠ some '\x7b' := by rwa [List.head?_append_of_ne_nil _ behind]
    have starts' := starts
    rw [← startsReference_append b cs behind] at starts'
    rw [readToken_of_dollar set eofAllowed _ (cs ++ b) rest' unbraced' starts']
    exact reference { s with rest := cs, escapedDollar := false } (by rw [readFirst_dollar s cs rest]) read
  | special set eofAllowed s c s₁ outside first other unquoted special token =>
    cases token.symm.trans h
    exact readToken_of_special set eofAllowed (s.followedBy b) c _ outside (next c _ first) other unquoted special
  | word set eofAllowed s c s₁ outside first other unquoted plain token =>
    cases token.symm.trans h
    have tail := word c s₁ first outside plain rfl rfl
    rw [readToken_of_word set eofAllowed (s.followedBy b) c _ outside (next c s₁ first) other unquoted plain, tail]
    rfl

theorem spent_of_readFirst_blank (set : Specials) (eofAllowed : Bool) (s s₁ s' : Scanner) (t : Token)
    (h : readToken set eofAllowed s = .ok t s') (first : s.readFirst = (some ' ', s₁)) (outside : s.quote = none)
    (none : s₁.rest = []) : Spent s' ∧ (t.kind = .special → t.text = [' ']) := by
  have other : ' ' ≠ '$' := by decide
  cases special : set.contains ' ' with
  | true =>
    cases (readToken_of_special set eofAllowed s ' ' s₁ outside first other rfl special).symm.trans h
    exact ⟨.inl none, fun _ => rfl⟩
  | false =>
    have token := readToken_of_word set eofAllowed s ' ' s₁ outside first other rfl special
    rw [readWord_nil set s₁ none] at token
    cases token.symm.trans h
    exact ⟨.inl none, by simp⟩

/-- A token is the same whatever text follows, if it does not reach to the end of the source, and if it is a special
character other than a blank in any case. -/
theorem readToken_followedBy (set : Specials) (eofAllowed : Bool) (s s' : Scanner) (t : Token)
    (h : readToken set eofAllowed s = .ok t s') (more : Spent s' → t.kind = .special ∧ t.text ≠ [' ']) :
    readToken set eofAllowed (s.followedBy b) = .ok t (s'.followedBy b) := by
  induction length : s.rest.length using Nat.strongRecOn generalizing set eofAllowed s s' t with
  | ind n ih =>
    have left (other : t.kind ≠ .special) : ¬ Spent s' := fun spent => other (more spent).1
    refine readToken_followedBy_of_ends b set eofAllowed s s' t h ?_ ?_ ?_ ?_ ?_
    · intro eof
      rcases readToken_ok set eofAllowed s s' t h with ⟨-, -, none⟩ | ⟨other, -⟩
      · exact left (by simp [eof]) (.inl none)
      · exact other eof
    · intro c s₁ first
      refine readFirst_followedBy b s s₁ c first ?_
      rintro rfl outside none
      obtain ⟨spent, blank⟩ := spent_of_readFirst_blank set eofAllowed s s₁ s' t h first outside none
      exact (more spent).2 (blank (more spent).1)
    · intro u u' name shorter inner some
      exact ih u.rest.length (length ▸ shorter) .braced false u u' name inner (absurd · some) rfl
    · intro u _ reference
      refine readPlainReference_followedBy b set u.line u s' t reference (left ?_)
      simp [(readPlainReference_ok set u.line u s' t reference).1]
    · rintro c s₁ - - - kind rfl
      exact readWord_followedBy b set s₁ (left (by simp [kind]))

theorem readFirst_spent (s s' : Scanner) (c : Char) (spent : Spent s) (h : s.readFirst = (some c, s')) :
    c = ' ' ∧ s'.rest = [] := by
  have gap : opensGap ' ' = true := by decide
  have space : isSpace ' ' = true := by decide
  rcases spent with none | last
  · simp [readFirst, readRaw, readChar, none] at h
  · rw [readFirst] at h
    split at h
    · simp only [readRaw, last] at h
      cases h
      exact ⟨rfl, rfl⟩
    · simp only [readChar, last, gap, if_true] at h
      cases h
      exact ⟨rfl, by simp [afterGap, last, skipGap, space]⟩

theorem readString_spent (quote : Quote) (s s' : Scanner) (t : Token) (spent : Spent s) :
    readString quote s ≠ .ok t s' := by
  have other : ' ' ≠ quote.char := by cases quote <;> decide
  rcases spent with none | last
  · simp [readString, none, readPiece, fail]
  · simp [readString, last, readPiece, StringPiece.push, fail, other]

theorem readToken_spent (set : Specials) (eofAllowed : Bool) (s s' : Scanner) (t : Token) (spent : Spent s)
    (blank : set.contains ' ' = true) (h : readToken set eofAllowed s = .ok t s') :
    s'.rest = [] ∧ (t.kind = .eof ∨ t.kind = .special ∧ t.text = [' ']) := by
  have dollar (cs : Text) : s.rest ≠ '$' :: cs := by
    rcases spent with none | last
    · simp [none]
    · simp [last]
  induction set, eofAllowed, s using readToken_induction with
  | inside set eofAllowed s quote inside plain token =>
    exact absurd (token.symm.trans h) (readString_spent quote s s' t spent)
  | opening set eofAllowed s c s₁ quote outside first opens token =>
    obtain ⟨rfl, -⟩ := readFirst_spent s s₁ c spent first
    cases opens
  | ended set s outside rest token =>
    cases token.symm.trans h
    exact ⟨rest, .inl rfl⟩
  | cut set s outside rest token => cases token.symm.trans h
  | deep set eofAllowed s cs rest tooDeep token => exact absurd rest (dollar _)
  | braced set eofAllowed s cs rest few token ih => exact absurd rest (dollar _)
  | plain set eofAllowed s cs rest unbraced starts token => exact absurd rest (dollar _)
  | special set eofAllowed s c s₁ outside first other unquoted special token =>
    obtain ⟨rfl, none⟩ := readFirst_spent s s₁ c spent first
    cases token.symm.trans h
    exact ⟨none, .inr ⟨rfl, rfl⟩⟩
  | word set eofAllowed s c s₁ outside first other unquoted plain token =>
    obtain ⟨rfl, -⟩ := readFirst_spent s s₁ c spent first
    cases blank.symm.trans plain

theorem isSpecial_of_blank (t : Token) (c : Char) (blank : t.text = [' ']) (other : ' ' ≠ c) :
    t.isSpecial [c] = false := by
  have apart : (' ' == c) = false := beq_eq_false_iff_ne.mpr other
  simp [Token.isSpecial, blank, Text.occursIn, List.isPrefixOf, apart]

theorem isSpecial_spent (set : Specials) (eofAllowed : Bool) (s s' : Scanner) (t : Token) (c : Char) (spent : Spent s)
    (blank : set.contains ' ' = true) (h : readToken set eofAllowed s = .ok t s') (other : ' ' ≠ c) :
    t.isSpecial [c] = false := by
  rcases (readToken_spent set eofAllowed s s' t spent blank h).2 with kind | ⟨-, text⟩
  · simp [Token.isSpecial, kind]
  · exact isSpecial_of_blank t c text other

theorem readNonblank_spent (s : Scanner) (spent : Spent s) : s.readNonblank.1 = none := by
  have space : isSpace ' ' = true := by decide
  rcases spent with none | last
  · simp [readNonblank, readRaw, afterGap, none, skipGap]
  · simp [readNonblank, readRaw, afterGap, last, skipGap, space]

theorem readNonblank_followedBy (s s' : Scanner) (c : Char) (h : s.readNonblank = (some c, s')) :
    (s.followedBy b).readNonblank = (some c, s'.followedBy b) := by
  have behind := rest_of_readRaw s.afterGap s' c h
  rw [readNonblank, afterGap_followedBy b s (by simp [behind])]
  exact readRaw_followedBy b s.afterGap s' c h

theorem readHead_spent (eofAllowed : Bool) (s s' : Scanner) (head : Head) (spent : Spent s)
    (h : readHead eofAllowed s = .ok head s') : head = .endOfFile := by
  fun_induction readHead eofAllowed s with
  | case2 =>
    cases h
    rfl
  | case3 s t s₁ token eof blank ih =>
    exact ih (.inl (readToken_spent _ _ _ _ _ spent (by decide) token).1) h
  | case4 s t s₁ token eof blank close =>
    simp [isSpecial_spent _ _ _ _ _ '\x7d' spent (by decide) token (by decide)] at close
  | case7 s t s₁ token eof blank close opens assigns word =>
    rcases (readToken_spent _ _ _ _ _ spent (by decide) token).2 with kind | ⟨kind, -⟩
    · exact absurd kind eof
    · simp [kind] at word
  | _ => simp [fail] at h

theorem readRawValue_spent (s s' : Scanner) (spent : Spent s) : (readRawValue s).2 ≠ .ok () s' := by
  intro h
  fun_induction readRawValue s with
  | case1 => cases h
  | case2 => cases h
  | case3 s t s₁ token _ ends => simp [isSpecial_spent _ _ _ _ _ ';' spent (by decide) token (by decide)] at ends
  | case4 s t s₁ token _ _ close => simp [isSpecial_spent _ _ _ _ _ '\x7d' spent (by decide) token (by decide)] at close
  | case5 s t s₁ token _ _ _ ts ending hr ih =>
    exact ih (.inl (readToken_spent _ _ _ _ _ spent (by decide) token).1) (by rw [hr]; exact h)

theorem readParameters_spent (protocol : Text) (names parameters : List Text) (s s' : Scanner) (spent : Spent s) :
    readParameters protocol names s ≠ .ok parameters s' := by
  intro h
  fun_induction readParameters protocol names s with
  | case3 names s t s₁ token close => simp [isSpecial_spent _ _ _ _ _ ')' spent (by decide) token (by decide)] at close
  | case4 names s t s₁ token _ _ ih => exact ih (.inl (readToken_spent _ _ _ _ _ spent (by decide) token).1) h
  | case6 names s t s₁ token _ _ _ _ ih => exact ih (.inl (readToken_spent _ _ _ _ _ spent (by decide) token).1) h
  | _ => simp [fail] at h

theorem readToken_followedBy_special (set : Specials) (eofAllowed : Bool) (s s' : Scanner) (t : Token) (c : Char)
    (h : readToken set eofAllowed s = .ok t s') (special : t.isSpecial [c] = true) (other : ' ' ≠ c) :
    readToken set eofAllowed (s.followedBy b) = .ok t (s'.followedBy b) := by
  refine readToken_followedBy b set eofAllowed s s' t h fun _ => ⟨isSpecial_kind special, fun text => ?_⟩
  rw [isSpecial_of_blank t c text other] at special
  cases special

theorem readHead_named_followedBy (eofAllowed : Bool) (s s' : Scanner) (name : Text) (line : Int) (c : Char)
    (h : readHead eofAllowed s = .ok (.named name line (some c)) s') :
    readHead eofAllowed (s.followedBy b) = .ok (.named name line (some c)) (s'.followedBy b) := by
  fun_induction readHead eofAllowed s with
  | case3 s t s₁ token eof blank ih =>
    have left : ¬ Spent s₁ := fun spent => by cases readHead_spent _ _ _ _ spent h
    have token' := readToken_followedBy b _ _ _ _ _ token (absurd · left)
    rw [readHead_of_token _ _ _ _ token', if_neg eof, if_pos blank]
    exact ih h
  | case7 s t s₁ token eof blank close opens assigns word =>
    simp only [EStateM.Result.ok.injEq, Head.named.injEq] at h
    obtain ⟨⟨rfl, rfl, after⟩, behind⟩ := h
    have left : ¬ Spent s₁ := fun spent => by
      rw [readNonblank_spent s₁ spent] at after
      cases after
    have token' := readToken_followedBy b _ _ _ _ _ token (absurd · left)
    have after' := readNonblank_followedBy b s₁ s' c (Prod.ext after behind)
    rw [readHead_of_token _ _ _ _ token', if_neg eof, if_neg blank, if_neg close, if_neg opens, if_neg assigns,
      if_pos word, after']
  | _ => simp [fail] at h

theorem readHead_close_followedBy (eofAllowed : Bool) (s s' : Scanner) (h : readHead eofAllowed s = .ok .close s') :
    readHead eofAllowed (s.followedBy b) = .ok .close (s'.followedBy b) := by
  fun_induction readHead eofAllowed s with
  | case3 s t s₁ token eof blank ih =>
    have left : ¬ Spent s₁ := fun spent => by cases readHead_spent _ _ _ _ spent h
    have token' := readToken_followedBy b _ _ _ _ _ token (absurd · left)
    rw [readHead_of_token _ _ _ _ token', if_neg eof, if_pos blank]
    exact ih h
  | case4 s t s₁ token eof blank close =>
    cases h
    have token' := readToken_followedBy_special b _ _ _ _ _ '\x7d' token close (by decide)
    rw [readHead_of_token _ _ _ _ token', if_neg eof, if_neg blank, if_pos close]
  | _ => simp [fail] at h

theorem readRawValue_followedBy (s s' : Scanner) (ts : List Token) (h : readRawValue s = (ts, .ok () s')) :
    readRawValue (s.followedBy b) = (ts, .ok () (s'.followedBy b)) := by
  fun_induction readRawValue s generalizing ts with
  | case1 => cases h
  | case2 => cases h
  | case3 s t s₁ token other ends =>
    cases h
    have token' := readToken_followedBy_special b _ _ _ _ _ ';' token ends (by decide)
    rw [readRawValue_of_token _ _ _ token', if_neg other, if_pos ends]
  | case4 s t s₁ token other ends close =>
    cases h
    have token' := readToken_followedBy_special b _ _ _ _ _ '\x7d' token close (by decide)
    rw [readRawValue_of_token _ _ _ token', if_neg other, if_neg ends, if_pos close]
    rfl
  | case5 s t s₁ token other ends close rest ending hr ih =>
    cases h
    have left : ¬ Spent s₁ := fun spent => readRawValue_spent s₁ s' spent (by rw [hr])
    have token' := readToken_followedBy b _ _ _ _ _ token (absurd · left)
    rw [readRawValue_of_token _ _ _ token', if_neg other, if_neg ends, if_neg close, ih rest hr]

theorem readLazyValue_followedBy (s s' : Scanner) (ts : List Token) (h : readLazyValue s = .ok ts s') :
    readLazyValue (s.followedBy b) = .ok ts (s'.followedBy b) := by
  rw [readLazyValue] at h
  split at h
  · next raw s₁ hr =>
    cases h
    rw [readLazyValue, readRawValue_followedBy b s s' raw hr]
  · cases h

theorem rest_of_readHead_none (eofAllowed : Bool) (s s' : Scanner) (name : Text) (line : Int)
    (h : readHead eofAllowed s = .ok (.named name line none) s') : s'.rest = [] := by
  fun_induction readHead eofAllowed s with
  | case3 s t s₁ token eof blank ih => exact ih h
  | case7 s t s₁ =>
    simp only [EStateM.Result.ok.injEq, Head.named.injEq] at h
    obtain ⟨⟨-, -, after⟩, rfl⟩ := h
    cases hs : s₁.afterGap.rest with
    | nil => simp [readNonblank, readRaw, hs]
    | cons c cs => simp [readNonblank, readRaw, hs] at after
  | _ => simp [fail] at h

theorem CommandAt.followedBy {s s' : Scanner} {c : WrittenCommand} (h : CommandAt s c s') :
    CommandAt (s.followedBy b) c (s'.followedBy b) := by
  cases h with
  | intro s₁ _ name line after arguments head assigns opens plain value =>
    cases after with
    | none =>
      rw [unread?, readLazyValue] at value
      split at value
      · next raw s₂ hr =>
        exact absurd (by rw [hr]) (readRawValue_spent s₁ s₂ (.inl (rest_of_readHead_none false s s₁ name line head)))
      · cases value
    | some d =>
      have head' := readHead_named_followedBy b false s s₁ name line d head
      have value' := readLazyValue_followedBy b _ s' arguments value
      exact .intro _ (s₁.followedBy b) _ name line (some d) arguments head' assigns opens plain value'

theorem HandlerAt.followedBy {s s' : Scanner} {cs : List WrittenCommand} (h : HandlerAt s cs s') :
    HandlerAt (s.followedBy b) cs (s'.followedBy b) := by
  induction h with
  | close s s' head => exact .close _ _ (readHead_close_followedBy b false s s' head)
  | command s s₁ s' c cs first rest ih => exact .command _ _ _ c cs (first.followedBy b) ih

theorem BodyAt.followedBy {s s' : Scanner} {items : List BodyItem} (h : BodyAt s items s') :
    BodyAt (s.followedBy b) items (s'.followedBy b) := by
  induction h with
  | close s s' head => exact .close _ _ (readHead_close_followedBy b false s s' head)
  | assignment s s₁ s₂ s' name line value items head plain tokens rest ih =>
    exact .assignment _ _ _ _ name line value items (readHead_named_followedBy b false s s₁ name line '=' head) plain
      (readRawValue_followedBy b s₁ s₂ value tokens) ih
  | handler s s₁ s₂ s' name line cs items head handler commands rest ih =>
    exact .handler _ _ _ _ name line cs items (readHead_named_followedBy b false s s₁ name line '\x7b' head) handler
      (commands.followedBy b) ih
  | command s s₁ s' c items first rest ih => exact .command _ _ _ c items (first.followedBy b) ih

theorem readParameters_of_token (protocol : Text) (names : List Text) (s s₁ : Scanner) (t : Token)
    (token : readToken .structural false s = .ok t s₁) :
    readParameters protocol names s =
      if t.isSpecial [')'] then
        if maxParameters < names.length then s₁.fail (.tooManyParameters protocol) else .ok names s₁
      else if t.isBlank then readParameters protocol names s₁
      else if t.kind = .word && t.text.head?.any fun c => isLetter c || c == '_' then
        if names.contains t.text then s₁.fail (.repeatedParameter t.text protocol)
        else readParameters protocol (names ++ [t.text]) s₁
      else s₁.refuse t (.unexpectedParameter t.source protocol) := by
  rw [readParameters]
  split <;> rename_i h <;> cases token.symm.trans h
  rfl

theorem readParameters_followedBy (protocol : Text) (names parameters : List Text) (s s' : Scanner)
    (h : readParameters protocol names s = .ok parameters s') :
    readParameters protocol names (s.followedBy b) = .ok parameters (s'.followedBy b) := by
  fun_induction readParameters protocol names s with
  | case3 names s t s₁ token close few =>
    cases h
    have token' := readToken_followedBy_special b _ _ _ _ _ ')' token close (by decide)
    rw [readParameters_of_token _ _ _ _ _ token', if_pos close, if_neg few]
  | case4 names s t s₁ token close blank ih =>
    have left : ¬ Spent s₁ := fun spent => readParameters_spent _ _ _ _ _ spent h
    have token' := readToken_followedBy b _ _ _ _ _ token (absurd · left)
    rw [readParameters_of_token _ _ _ _ _ token', if_neg close, if_pos blank]
    exact ih h
  | case6 names s t s₁ token close blank word fresh ih =>
    have left : ¬ Spent s₁ := fun spent => readParameters_spent _ _ _ _ _ spent h
    have token' := readToken_followedBy b _ _ _ _ _ token (absurd · left)
    rw [readParameters_of_token _ _ _ _ _ token', if_neg close, if_neg blank, if_pos word, if_neg fresh]
    exact ih h
  | _ => simp [fail] at h

theorem readSignature_followedBy (name : Text) (parameters : List Text) (s s' : Scanner)
    (h : readSignature name s = .ok parameters s') :
    readSignature name (s.followedBy b) = .ok parameters (s'.followedBy b) := by
  rw [readSignature] at h
  split at h
  · cases h
  · next ps s₁ hp =>
    split at h
    · next s₂ brace =>
      cases h
      rw [readSignature, readParameters_followedBy b name [] parameters s s₁ hp]
      simp only [readNonblank_followedBy b s₁ s' _ brace]
    · cases h

/-- A statement stands here, and this is where it ends. -/
inductive StatementAt : Scanner → Statement → Scanner → Prop
  | assignment (s s₁ s' : Scanner) (name : Text) (line : Int) (value : List Token)
      (head : s.readHead true = .ok (.named name line (some '=')) s₁) (plain : isHandlerName name = false)
      (tokens : s₁.readRawValue = (value, .ok () s')) : StatementAt s (.assignment name line value) s'
  | handler (s s₁ s' : Scanner) (name : Text) (line : Int) (cs : List WrittenCommand)
      (head : s.readHead true = .ok (.named name line (some '\x7b')) s₁) (handler : isHandlerName name = true)
      (commands : HandlerAt s₁ cs s') : StatementAt s (.handler name line cs) s'
  | definition (s s₁ s₂ s' : Scanner) (name : Text) (line : Int) (after : Option Char) (parameters : List Text)
      (items : List BodyItem) (head : s.readHead true = .ok (.named name line after) s₁)
      (plain : isHandlerName name = false) (opens : after = some '\x7b' ∨ after = some '(')
      (opening : ProtocolFile.readOpening name after s₁ = .ok parameters s₂) (body : BodyAt s₂ items s') :
      StatementAt s (.definition name line parameters items) s'

theorem statementsAt_cons_iff (s : Scanner) (statement : Statement) (statements : List Statement) :
    StatementsAt s (statement :: statements) ↔ ∃ s', StatementAt s statement s' ∧ StatementsAt s' statements := by
  constructor
  · intro h
    cases h with
    | assignment _ s₁ s' name line value _ head plain tokens rest =>
      exact ⟨s', .assignment s s₁ s' name line value head plain tokens, rest⟩
    | handler _ s₁ s' name line cs _ head handler commands rest =>
      exact ⟨s', .handler s s₁ s' name line cs head handler commands, rest⟩
    | definition _ s₁ s₂ s' name line after parameters items _ head plain opens opening body rest =>
      exact ⟨s', .definition s s₁ s₂ s' name line after parameters items head plain opens opening body, rest⟩
  · rintro ⟨s', first, rest⟩
    cases first with
    | assignment s₁ _ name line value head plain tokens =>
      exact .assignment s s₁ s' name line value statements head plain tokens rest
    | handler s₁ _ name line cs head handler commands =>
      exact .handler s s₁ s' name line cs statements head handler commands rest
    | definition s₁ s₂ _ name line after parameters items head plain opens opening body =>
      exact .definition s s₁ s₂ s' name line after parameters items statements head plain opens opening body rest

end Scanner

namespace ProtocolFile

theorem readOpening_followedBy (b name : Text) (after : Option Char) (parameters : List Text) (s s' : Scanner)
    (h : readOpening name after s = .ok parameters s') :
    readOpening name after (s.followedBy b) = .ok parameters (s'.followedBy b) := by
  rw [readOpening] at h ⊢
  split at h
  · next opens =>
    rw [if_pos opens]
    exact Scanner.readSignature_followedBy b name parameters s s' h
  · next opens =>
    cases h
    rw [if_neg opens]

end ProtocolFile

theorem Scanner.StatementAt.followedBy (b : Text) {s s' : Scanner} {statement : Statement}
    (h : StatementAt s statement s') : StatementAt (s.followedBy b) statement (s'.followedBy b) := by
  cases h with
  | assignment s₁ _ name line value head plain tokens =>
    exact .assignment _ _ _ name line value (readHead_named_followedBy b true s s₁ name line '=' head) plain
      (readRawValue_followedBy b s₁ s' value tokens)
  | handler s₁ _ name line cs head handler commands =>
    exact .handler _ _ _ name line cs (readHead_named_followedBy b true s s₁ name line '\x7b' head) handler
      (commands.followedBy b)
  | definition s₁ s₂ _ name line after parameters items head plain opens opening body =>
    have head' : readHead true (s.followedBy b) = .ok (.named name line after) (s₁.followedBy b) := by
      rcases opens with rfl | rfl
      · exact readHead_named_followedBy b true s s₁ name line '\x7b' head
      · exact readHead_named_followedBy b true s s₁ name line '(' head
    exact .definition _ _ _ _ name line after parameters items head' plain opens
      (ProtocolFile.readOpening_followedBy b name after parameters s₁ s₂ opening) (body.followedBy b)

namespace ProtocolFile

open Scanner

theorem readStatements_of_statementAt (f g : ProtocolFile) (s s' : Scanner) (statement : Statement)
    (first : StatementAt s statement s') (extended : f.extend? statement = some g) :
    f.readStatements s = g.readStatements s' := by
  cases first with
  | assignment s₁ _ name line value head plain tokens =>
    obtain ⟨p, settled, rfl⟩ := Option.map_eq_some_iff.mp extended
    have assignment := (f.globals.readAssignment_eq_ok_iff p name line s₁ s').mpr ⟨value, tokens, settled⟩
    rw [readStatements]
    split <;> rename_i h <;> cases head.symm.trans h
    simp only [plain, if_true, Bool.false_eq_true, if_false]
    split <;> rename_i h <;> cases assignment.symm.trans h
    rfl
  | handler s₁ _ name line cs head handler commands =>
    cases extended
    have block := (noted_eq_ok_iff line (.inHandler name) _ _ _).mpr
      ((readHandler_eq_ok_iff f.protocols s₁ s' _).mpr ⟨cs, commands, rfl⟩)
    rw [readStatements]
    split <;> rename_i h <;> cases head.symm.trans h
    simp only [handler, if_true, Option.some.injEq, show ('\x7b' = '=') = False by decide, if_false]
    split <;> rename_i h <;> cases block.symm.trans h
    rfl
  | definition s₁ s₂ _ name line after parameters items head plain opens opening body =>
    obtain ⟨fresh, p, hp, rfl⟩ := (f.extend?_definition g name line parameters items).mp extended
    have definition := (f.readDefinition_eq_ok_iff name line parameters s₂ s' p).mpr ⟨items, body, fresh, hp⟩
    have assigns : after ≠ some '=' := by
      rcases opens with rfl | rfl <;> decide
    rw [readStatements]
    split <;> rename_i h <;> cases head.symm.trans h
    simp only [assigns, plain, Bool.false_eq_true, if_false, Bool.or_eq_true, decide_eq_true_eq, opens, if_true]
    split <;> rename_i h <;> cases opening.symm.trans h
    split <;> rename_i h <;> cases definition.symm.trans h
    rfl

theorem readStatements_followedBy (b : Text) (f g : ProtocolFile) (s : Scanner) (statements : List Statement)
    (written : StatementsAt s statements) (built : f.build? statements = some g) :
    ∃ s', f.readStatements (s.followedBy b) = g.readStatements s' := by
  induction statements generalizing f s with
  | nil =>
    cases built
    exact ⟨_, rfl⟩
  | cons statement statements ih =>
    obtain ⟨s₁, first, rest⟩ := (statementsAt_cons_iff s statement statements).mp written
    obtain ⟨f₁, extended, built⟩ := Option.bind_eq_some_iff.mp built
    rw [f.readStatements_of_statementAt f₁ _ _ statement (first.followedBy b) extended]
    exact ih f₁ s₁ rest built

theorem readStatements_protocols (f : ProtocolFile) (s : Scanner) :
    f.protocols <+: (f.readStatements s).1.protocols := by
  fun_induction readStatements f s with
  | case6 f s name line s₁ plain p s₂ ha head ih => exact ih
  | case8 f s name line s₁ handler ts s₂ hh head _ ih => exact ih
  | case12 f s name line after s₁ head assigns plain opens parameters s₂ opening p s₃ hd ih =>
    exact (List.prefix_append f.protocols [p]).trans ih
  | _ => exact List.prefix_rfl

/-- The protocols of a source stay as they are if more text is written behind it, whether this can be read or not. -/
theorem read_append (source more : Text) (file : Option Text) (valid : (read source file).2 = none) :
    (read source file).1.protocols <+: (read (source ++ more) file).1.protocols := by
  have ends : (empty file).readStatements (.ofSource source) = ((read source file).1, none) := by
    refine Prod.ext rfl ?_
    simpa [read] using valid
  obtain ⟨statements, g, written, built, hg⟩ := ((empty file).readStatements_eq_none_iff _ _).mp ends
  obtain ⟨s, goesOn⟩ := (empty file).readStatements_followedBy more g _ statements written built
  have whole : (read (source ++ more) file).1 = (g.readStatements s).1 := by
    rw [← goesOn]
    rfl
  rw [whole, hg]
  exact g.readStatements_protocols s

/-- The added text prolongs a comment, defines one more protocol and breaks off in the next. -/
theorem read_append_broken :
    let source := "t = 100; @init \x7b out \"?\" \x7d p(q) \x7b t = $q; in \"$t\" \x7d # sp".toList
    let more := "are\nr \x7b p; t = 1 \x7d s \x7b out 'x".toList
    (read source none).2 = none ∧ (read (source ++ more) none).2 ≠ none ∧
      (read (source ++ more) none).1.protocols.map Protocol.name = [['p'], ['r']] ∧
      (read source none).1.protocols <+: (read (source ++ more) none).1.protocols := by
  intro source more
  have valid : (read source none).2 = none := by decide +kernel
  exact ⟨valid, by decide +kernel, by decide +kernel, read_append source more none valid⟩

end ProtocolFile
end DeviceProtocol
