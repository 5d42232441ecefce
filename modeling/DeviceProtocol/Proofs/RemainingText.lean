import DeviceProtocol.Proofs.TextAppended
set_option autoImplicit false

namespace DeviceProtocol.Scanner

/-- What may be left of a text when a part of it has been read. -/
inductive Remains : Text → Text → Prop
  | suffix {t u : Text} (part : u <:+ t) : Remains t u
  | blank {t u : Text} (rest : Remains t u) : Remains t (' ' :: u)

namespace Remains

variable {t u v : Text}

theorem refl (t : Text) : Remains t t := .suffix List.suffix_rfl

theorem drop (h : Remains t u) (part : v <:+ u) : Remains t v := by
  induction h generalizing v with
  | suffix whole => exact .suffix (part.trans whole)
  | blank rest ih =>
    rcases List.suffix_cons_iff.mp part with rfl | shorter
    · exact .blank rest
    · exact ih shorter

theorem trans (h : Remains t u) (rest : Remains u v) : Remains t v := by
  induction rest with
  | suffix part => exact h.drop part
  | blank _ ih => exact .blank ih

theorem keeps {P : Text → Prop} (h : Remains t u) (suffix : ∀ {t u}, P t → u <:+ t → P u)
    (blank : ∀ {t}, P t → P (' ' :: t)) (start : P t) : P u := by
  induction h with
  | suffix part => exact suffix start part
  | blank _ ih => exact blank ih

end Remains

theorem skipGap_suffix (comment : Bool) (cs : Text) (line : Int) : (skipGap comment cs line).1 <:+ cs := by
  induction cs generalizing comment line with
  | nil => cases comment <;> exact List.suffix_rfl
  | cons c cs ih =>
    have shorter (comment : Bool) (line : Int) := (ih comment line).trans (List.suffix_cons c cs)
    cases comment with
    | true =>
      rw [skipGap]
      split
      · exact shorter _ _
      · exact shorter _ _
    | false =>
      rw [skipGap]
      split
      · exact shorter _ _
      · split
        · exact shorter _ _
        · exact List.suffix_rfl

theorem readRaw_suffix (s : Scanner) : s.readRaw.2.rest <:+ s.rest := by
  rw [readRaw]
  split
  · exact List.suffix_rfl
  · next c cs hs =>
    rw [hs]
    exact List.suffix_cons c cs

theorem readChar_suffix (s : Scanner) : s.readChar.2.rest <:+ s.rest := by
  rw [readChar]
  split
  · exact List.suffix_rfl
  · split
    · exact skipGap_suffix false s.rest s.line
    · exact s.readRaw_suffix

theorem readFirst_suffix (s : Scanner) : s.readFirst.2.rest <:+ s.rest := by
  rw [readFirst]
  split
  · exact s.readRaw_suffix
  · exact s.readChar_suffix

theorem readPiece_suffix (quote : Quote) (line : Int) (cs : Text) : (readPiece quote line cs).rest <:+ cs := by
  induction cs using readPiece_induction quote line with
  | nil piece | reference c cs _ _ _ _ piece => simp only [piece, List.suffix_rfl]
  | newline cs piece | close cs _ piece | dollar ds _ piece =>
    rw [piece]
    exact List.suffix_cons _ _
  | last piece =>
    rw [piece]
    exact List.nil_suffix
  | broken ds piece =>
    rw [piece]
    exact (List.suffix_cons _ _).trans (List.suffix_cons _ _)
  | escape d ds _ _ _ piece ih =>
    rw [piece]
    exact ih.trans ((List.suffix_cons _ _).trans (List.suffix_cons _ _))
  | plain c cs _ _ _ _ piece ih =>
    rw [piece]
    exact ih.trans (List.suffix_cons _ _)

theorem rest_of_readChar (s s' : Scanner) (c : Char) (h : s.readChar = (some c, s')) (other : c ≠ ' ') :
    c ≠ '\n' ∧ s.rest = c :: s'.rest := by
  cases hs : s.rest with
  | nil => simp [readChar, hs] at h
  | cons d ds =>
    simp only [readChar, hs] at h
    cases gap : opensGap d with
    | true =>
      simp only [gap, if_true] at h
      cases h
      exact absurd rfl other
    | false =>
      simp only [gap, Bool.false_eq_true, if_false] at h
      have raw := rest_of_readRaw s s' c h
      rw [hs] at raw
      cases raw
      refine ⟨?_, rfl⟩
      rintro rfl
      exact absurd gap (by decide)

theorem readWord_remains (set : Specials) (s : Scanner) : Remains s.rest (readWord set s).2.rest := by
  have next (s s₁ : Scanner) (c : Option Char) (char : s.readChar = (c, s₁)) : Remains s.rest s₁.rest := by
    have part := s.readChar_suffix
    rw [char] at part
    exact .suffix part
  fun_induction readWord set s with
  | case1 s s₁ char => exact next s s₁ none char
  | case2 s c s₁ char special =>
    by_cases blank : c = ' '
    · subst blank
      exact .blank (next s s₁ ' ' char)
    · rw [unread, ← (rest_of_readChar s s₁ c char blank).2]
      exact .refl _
  | case3 s c s₁ char special tail ih => exact (next s s₁ c char).trans ih

theorem readString_remains (quote : Quote) (s s' : Scanner) (t : Token) (h : readString quote s = .ok t s') :
    Remains s.rest s'.rest := by
  rw [(readString_ok quote s s' t h).2]
  exact .suffix (readPiece_suffix quote s.line s.rest)

theorem readPlainReference_remains (set : Specials) (line : Int) (s s' : Scanner) (t : Token)
    (h : readPlainReference set line s = .ok t s') : Remains s.rest s'.rest := by
  have behind := Remains.suffix s.readRaw_suffix
  rw [readPlainReference] at h
  split at h
  · cases h
  · next c cs hs =>
    dsimp only at h
    split at h
    · cases h
      exact behind
    · split at h
      · split at h
        · cases h
        · cases h
          rw [hs]
          exact .suffix (List.dropWhile_suffix _)
      · split at h
        · cases h
        · cases h
          exact behind.trans (readWord_remains set _)

theorem closeReference_remains (quote : Option Quote) (line : Int) (name t : Token) (s s' : Scanner)
    (h : closeReference quote line name s = .ok t s') : Remains s.rest s'.rest := by
  have behind := s.readRaw_suffix
  rw [closeReference] at h
  split at h
  · cases h
  · split at h
    · next s₁ raw =>
      cases h
      rw [raw] at behind
      exact .suffix behind
    · cases h

theorem readToken_remains (set : Specials) (eofAllowed : Bool) (s s' : Scanner) (t : Token)
    (h : readToken set eofAllowed s = .ok t s') : Remains s.rest s'.rest := by
  have next (s s₁ : Scanner) (c : Char) (first : s.readFirst = (some c, s₁)) : Remains s.rest s₁.rest := by
    have part := s.readFirst_suffix
    rw [first] at part
    exact .suffix part
  induction set, eofAllowed, s using readToken_induction generalizing t s' with
  | inside set eofAllowed s quote inside plain token => exact readString_remains quote s s' t (token.symm.trans h)
  | opening set eofAllowed s c s₁ quote outside first opens token =>
    exact (next s s₁ c first).trans (readString_remains quote s₁ s' t (token.symm.trans h))
  | ended set s outside rest token =>
    cases token.symm.trans h
    exact .refl _
  | cut set s outside rest token => cases token.symm.trans h
  | deep set eofAllowed s cs rest tooDeep token => cases token.symm.trans h
  | braced set eofAllowed s cs rest few token ih =>
    obtain ⟨name, s₂, inner, close⟩ := closeBraces_eq_ok (token.symm.trans h)
    have opened : Remains s.rest cs := by
      rw [rest]
      exact .suffix ((List.suffix_cons _ cs).trans (List.suffix_cons _ _))
    exact opened.trans ((ih s₂ name inner).trans (closeReference_remains _ _ _ _ _ _ close))
  | plain set eofAllowed s cs rest unbraced starts token =>
    rw [rest]
    exact (Remains.suffix (List.suffix_cons _ cs)).trans (readPlainReference_remains set _ _ s' t (token.symm.trans h))
  | special set eofAllowed s c s₁ outside first other unquoted special token =>
    cases token.symm.trans h
    exact next s _ c first
  | word set eofAllowed s c s₁ outside first other unquoted plain token =>
    cases token.symm.trans h
    exact (next s s₁ c first).trans (readWord_remains set s₁)

theorem readNonblank_unread (s : Scanner) : (s.readNonblank.2.unread? s.readNonblank.1).rest = s.afterGap.rest := by
  rw [readNonblank, readRaw]
  split
  · rfl
  · next c cs hs => exact hs.symm

theorem readHead_remains (eofAllowed : Bool) (s s' : Scanner) (name : Text) (line : Int) (after : Option Char)
    (h : readHead eofAllowed s = .ok (.named name line after) s') : Remains s.rest (s'.unread? after).rest := by
  fun_induction readHead eofAllowed s with
  | case3 s t s₁ token eof blank ih => exact (readToken_remains _ _ s s₁ t token).trans (ih h)
  | case7 s t s₁ token =>
    cases h
    rw [readNonblank_unread]
    exact (readToken_remains _ _ s s₁ t token).drop (skipGap_suffix false s₁.rest s₁.line)
  | _ => simp [fail] at h

end DeviceProtocol.Scanner
