import DeviceProtocol.Proofs.Outline
set_option autoImplicit false

/-!
What is read before a mark, a semicolon or a closing brace, does not depend on the text behind the mark. Two scanners
run side by side over texts that agree up to the mark. Either they stay so, or the first one has gone past the mark, in
a comment or a string or by a token that ends behind it.
-/
namespace DeviceProtocol.Scanner

/-- A character that ends a statement, unless it stands in a comment or a string. -/
def IsMark (m : Char) : Prop := m = ';' ∨ m = '\x7d'

section

variable (m : Char) (a b : Text)

/-- The unread texts agree up to the mark, with the one text or the other behind it. -/
def Beside (s u : Scanner) : Prop := ∃ w, s.rest = w ++ m :: a ∧ u = { s with rest := w ++ m :: b }

/-- The mark has been passed. A blank may have been put back. -/
def Past (a : Text) (s : Scanner) : Prop := s.rest.length ≤ a.length ∨ ∃ z, s.rest = ' ' :: z ∧ z.length ≤ a.length

end

variable {m : Char} {a b : Text}

theorem IsMark.opensGap (hm : IsMark m) : opensGap m = false := by
  rcases hm with rfl | rfl <;> decide

theorem IsMark.contains (hm : IsMark m) (set : Specials) : set.contains m = true := by
  rcases hm with rfl | rfl <;> cases set <;> decide

theorem IsMark.ofChar? (hm : IsMark m) : Quote.ofChar? m = none := by
  rcases hm with rfl | rfl <;> decide

theorem IsMark.isNameChar (hm : IsMark m) : isNameChar m = false := by
  rcases hm with rfl | rfl <;> decide

theorem IsMark.ne (hm : IsMark m) (c : Char) (other : c ≠ ';' ∧ c ≠ '\x7d') : m ≠ c := by
  rintro rfl
  rcases hm with rfl | rfl
  · exact other.1 rfl
  · exact other.2 rfl

theorem Past.length {s : Scanner} (h : Past a s) : s.rest.length ≤ a.length + 1 := by
  rcases h with h | ⟨z, hz, h⟩
  · omega
  · rw [hz, List.length_cons]
    omega

theorem skipGap_beside (hm : IsMark m) (comment : Bool) (w : Text) (line : Int) :
    (∃ w' line', skipGap comment (w ++ m :: a) line = (w' ++ m :: a, line') ∧
        skipGap comment (w ++ m :: b) line = (w' ++ m :: b, line')) ∨
      (skipGap comment (w ++ m :: a) line).1.length ≤ a.length := by
  induction w generalizing comment line with
  | nil =>
    have newline : m ≠ '\n' := hm.ne '\n' (by decide)
    have gap := hm.opensGap
    simp only [Scanner.opensGap, Bool.or_eq_false_iff, beq_eq_false_iff_ne] at gap
    cases comment with
    | true => exact .inr (by simpa [skipGap, newline] using skipGap_length true a line)
    | false => exact .inl ⟨[], line, by simp [skipGap, gap], by simp [skipGap, gap]⟩
  | cons d w ih =>
    cases comment with
    | true =>
      simp only [List.cons_append, skipGap]
      split
      · exact ih false (line + 1)
      · exact ih true line
    | false =>
      simp only [List.cons_append, skipGap]
      split
      · exact ih true line
      · split
        · exact ih false _
        · exact .inl ⟨d :: w, line, rfl, rfl⟩

theorem afterGap_beside {s u : Scanner} (hm : IsMark m) (h : Beside m a b s u) :
    Beside m a b s.afterGap u.afterGap ∨ s.afterGap.rest.length ≤ a.length := by
  obtain ⟨w, hs, rfl⟩ := h
  rcases skipGap_beside (a := a) (b := b) hm false w s.line with ⟨w', line, ha, hb⟩ | past
  · exact .inl ⟨w', by simp [afterGap, hs, ha], by simp [afterGap, hs, ha, hb]⟩
  · exact .inr (by simpa [afterGap, hs] using past)

theorem readRaw_beside {s u s' : Scanner} {c : Char} (h : Beside m a b s u) (hc : s.readRaw = (some c, s')) :
    (∃ u', u.readRaw = (some c, u') ∧ Beside m a b s' u') ∨
      (c = m ∧ s'.rest = a ∧ u.readRaw = (some c, { s' with rest := b })) := by
  obtain ⟨w, hs, rfl⟩ := h
  cases w with
  | nil =>
    simp only [readRaw, hs, List.nil_append] at hc ⊢
    cases hc
    exact .inr ⟨rfl, rfl, rfl⟩
  | cons d w =>
    simp only [readRaw, hs, List.cons_append] at hc ⊢
    cases hc
    exact .inl ⟨_, rfl, w, rfl, rfl⟩

theorem readChar_beside {s u s' : Scanner} {c : Char} (hm : IsMark m) (h : Beside m a b s u)
    (hc : s.readChar = (some c, s')) :
    (∃ u', u.readChar = (some c, u') ∧ Beside m a b s' u') ∨
      (c = m ∧ s'.rest = a ∧ u.readChar = (some c, { s' with rest := b })) ∨
      (c = ' ' ∧ s'.rest.length ≤ a.length) := by
  obtain ⟨w, hs, hu⟩ := id h
  obtain ⟨d, rest, rest', ha, hb⟩ : ∃ d rest rest', s.rest = d :: rest ∧ u.rest = d :: rest' := by
    cases w with
    | nil => exact ⟨m, a, b, hs, by rw [hu]; rfl⟩
    | cons d w => exact ⟨d, w ++ m :: a, w ++ m :: b, hs, by rw [hu]; rfl⟩
  simp only [readChar, ha, hb] at hc ⊢
  split at hc
  · next gap =>
    cases hc
    simp only [gap, if_true]
    rcases afterGap_beside hm h with beside | past
    · exact .inl ⟨_, rfl, beside⟩
    · exact .inr (.inr ⟨trivial, past⟩)
  · next gap =>
    simp only [gap, if_false, Bool.false_eq_true]
    rcases readRaw_beside h hc with same | mark
    · exact .inl same
    · exact .inr (.inl mark)

theorem Beside.unread {s u : Scanner} (h : Beside m a b s u) (c : Char) : Beside m a b (s.unread c) (u.unread c) := by
  obtain ⟨w, hs, rfl⟩ := h
  exact ⟨c :: w, by simp [Scanner.unread, hs], rfl⟩

theorem Beside.of_unread_mark (hm : IsMark m) (s : Scanner) (h : s.rest = a) :
    Beside m a b (s.unread m) ({ s with rest := b }.unread m) := by
  have newline : m ≠ '\n' := hm.ne '\n' (by decide)
  exact ⟨[], by simp [Scanner.unread, h], by simp [Scanner.unread, newline]⟩

theorem rest_of_readChar_none (s s' : Scanner) (h : s.readChar = (none, s')) : s.rest = [] := by
  unfold readChar readRaw at h
  split at h
  · assumption
  · split at h <;> simp_all

theorem readWord_beside {s u : Scanner} (hm : IsMark m) (set : Specials) (h : Beside m a b s u) :
    (∃ u', readWord set u = ((readWord set s).1, u') ∧ Beside m a b (readWord set s).2 u') ∨
      Past a (readWord set s).2 := by
  fun_induction readWord set s generalizing u with
  | case1 s s' hc =>
    obtain ⟨w, hs, -⟩ := h
    have nothing := rest_of_readChar_none s s' hc
    rw [hs] at nothing
    simp at nothing
  | case2 s c s' hc special =>
    rcases readChar_beside hm h hc with ⟨u', hu, beside⟩ | ⟨rfl, hs, hu⟩ | ⟨rfl, past⟩
    · refine .inl ⟨u'.unread c, ?_, beside.unread c⟩
      rw [readWord]
      split <;> rename_i h <;> cases hu.symm.trans h
      simp [special]
    · refine .inl ⟨_, ?_, .of_unread_mark hm s' hs⟩
      rw [readWord]
      split <;> rename_i h <;> cases hu.symm.trans h
      simp [special]
    · exact .inr (.inr ⟨s'.rest, rfl, past⟩)
  | case3 s c s' hc special tail =>
    rename_i ih
    rcases readChar_beside hm h hc with ⟨u', hu, beside⟩ | ⟨rfl, hs, hu⟩ | ⟨rfl, past⟩
    · rcases ih beside with ⟨u'', word, beside'⟩ | past
      · refine .inl ⟨u'', ?_, beside'⟩
        rw [readWord]
        split <;> rename_i h <;> cases hu.symm.trans h
        simp [special, word, tail]
      · exact .inr past
    · exact absurd (hm.contains set) special
    · have := readWord_length set s'
      exact .inr (.inl (Nat.le_trans this past))

def PiecesBeside (m : Char) (a b : Text) (x y : StringPiece) : Prop :=
  (∃ w, x.rest = w ++ m :: a ∧ y = { x with rest := w ++ m :: b }) ∨ x.rest.length ≤ a.length

theorem PiecesBeside.push {x y : StringPiece} (h : PiecesBeside m a b x y) (cs : Text) :
    PiecesBeside m a b (x.push cs) (y.push cs) := by
  rcases h with ⟨w, hx, rfl⟩ | past
  · exact .inl ⟨w, hx, rfl⟩
  · exact .inr past

theorem readPiece_mark (hm : IsMark m) (quote : Quote) (line : Int) :
    (readPiece quote line (m :: a)).rest.length ≤ a.length := by
  have dollar : m ≠ '$' := hm.ne '$' (by decide)
  have := readPiece_length_lt quote line m a (by simp [dollar])
  rw [List.length_cons] at this
  omega

theorem readPiece_beside (hm : IsMark m) (quote : Quote) (line : Int) : (w : Text) →
    PiecesBeside m a b (readPiece quote line (w ++ m :: a)) (readPiece quote line (w ++ m :: b))
  | [] => .inr (readPiece_mark hm quote line)
  | [d] => by
    have newline : m ≠ '\n' := hm.ne '\n' (by decide)
    have dollar : m ≠ '$' := hm.ne '$' (by decide)
    have reference (cs : Text) : startsReference (m :: cs) = false := by
      rcases hm with rfl | rfl <;> rfl
    have after : PiecesBeside m a b (readPiece quote line (m :: a)) (readPiece quote line (m :: b)) :=
      .inr (readPiece_mark hm quote line)
    simp only [List.cons_append, List.nil_append, readPiece.eq_3, newline, dollar, reference, Bool.and_false,
      Bool.false_eq_true, if_false]
    split
    · exact .inl ⟨[], rfl, rfl⟩
    · split
      · exact .inl ⟨[], rfl, rfl⟩
      · split
        · exact .inr (readPiece_length quote line a)
        · exact after.push [d]
  | d :: e :: w => by
    have one := readPiece_beside hm quote line (e :: w)
    have two := readPiece_beside hm quote line w
    have reference (cs : Text) : startsReference (e :: cs) = startsReference [e] := rfl
    simp only [List.cons_append, readPiece.eq_3, reference]
    split
    · exact .inl ⟨e :: w, rfl, rfl⟩
    · split
      · exact .inl ⟨e :: w, rfl, rfl⟩
      · split
        · split
          · exact .inl ⟨e :: w, rfl, rfl⟩
          · split
            · exact .inl ⟨w, rfl, rfl⟩
            · exact two.push _
        · split
          · exact .inl ⟨d :: e :: w, rfl, rfl⟩
          · exact one.push [d]

theorem readString_beside {s u s' : Scanner} {t : Token} (hm : IsMark m) (quote : Quote) (h : Beside m a b s u)
    (ht : readString quote s = .ok t s') :
    (∃ u', readString quote u = .ok t u' ∧ Beside m a b s' u') ∨ Past a s' := by
  obtain ⟨w, hs, rfl⟩ := h
  have pieces := readPiece_beside (a := a) (b := b) hm quote s.line w
  rw [← hs] at pieces
  rcases pieces with ⟨w', hx, hy⟩ | past
  · refine .inl ?_
    cases ending : (readPiece quote s.line s.rest).ending <;> simp only [readString, hy, ending] at ht ⊢ <;> cases ht
    all_goals exact ⟨_, rfl, w', hx, rfl⟩
  · refine .inr (.inl ?_)
    rw [(readString_ok quote s s' t ht).2]
    exact past

theorem takeWhile_mark {p : Char → Bool} (h : p m = false) (w : Text) : (w ++ m :: a).takeWhile p = w.takeWhile p := by
  induction w with
  | nil => simp [h]
  | cons d w ih => simp [List.takeWhile_cons, ih]

theorem dropWhile_mark {p : Char → Bool} (h : p m = false) (w : Text) :
    (w ++ m :: a).dropWhile p = w.dropWhile p ++ m :: a := by
  induction w with
  | nil => simp [h]
  | cons d w ih =>
    simp only [List.cons_append, List.dropWhile_cons, ih]
    split <;> rfl

theorem readPlainReference_beside {s u s' : Scanner} {t : Token} (hm : IsMark m) (set : Specials) (line : Int)
    (h : Beside m a b s u) (ht : readPlainReference set line s = .ok t s') :
    (∃ u', readPlainReference set line u = .ok t u' ∧ Beside m a b s' u') ∨ Past a s' := by
  obtain ⟨w, hs, rfl⟩ := h
  cases w with
  | nil =>
    have digit : isDigit m = false := by rcases hm with rfl | rfl <;> decide
    have special := hm.contains set
    have name := hm.isNameChar
    exfalso
    simp only [readPlainReference, hs, List.nil_append, digit, Bool.false_eq_true, if_false, special, Bool.true_or,
      if_true, List.takeWhile_cons, name, List.isEmpty_nil] at ht
    split at ht <;> cases ht
  | cons d w =>
    have name := takeWhile_mark (a := a) hm.isNameChar (d :: w)
    have name' := takeWhile_mark (a := b) hm.isNameChar (d :: w)
    have rest := dropWhile_mark (a := a) hm.isNameChar (d :: w)
    have rest' := dropWhile_mark (a := b) hm.isNameChar (d :: w)
    have next : Beside m a b s.readRaw.2 ({ s with rest := d :: (w ++ m :: b) } : Scanner).readRaw.2 :=
      ⟨w, by simp [readRaw, hs], by simp [readRaw, hs]⟩
    simp only [List.cons_append] at name name' rest rest' hs ⊢
    simp only [readPlainReference, hs, name, name', rest, rest'] at ht ⊢
    split at ht
    · next digit =>
      cases ht
      exact .inl ⟨_, by simp only [digit, if_true], next⟩
    · next digit =>
      simp only [digit, if_false, Bool.false_eq_true]
      split at ht
      · next quoted =>
        split at ht
        · cases ht
        · next some =>
          cases ht
          simp only [quoted, some, if_true, if_false, Bool.false_eq_true]
          exact .inl ⟨_, rfl, (d :: w).dropWhile isNameChar, rfl, rfl⟩
      · next quoted =>
        split at ht
        · cases ht
        · next word =>
          cases ht
          simp only [quoted, word, if_false, Bool.false_eq_true]
          rcases readWord_beside hm set next with ⟨u', same, beside⟩ | past
          · exact .inl ⟨u', by rw [same], beside⟩
          · exact .inr past

theorem closeReference_beside {s u s' : Scanner} {t name : Token} (quote : Option Quote) (line : Int)
    (h : Beside m a b s u) (ht : closeReference quote line name s = .ok t s') :
    (∃ u', closeReference quote line name u = .ok t u' ∧ Beside m a b s' u') ∨ Past a s' := by
  rw [closeReference] at ht
  split at ht
  · cases ht
  · next word =>
    split at ht
    · next s₁ hc =>
      cases ht
      rcases readRaw_beside h hc with ⟨u₁, hu, w, hw, rfl⟩ | ⟨-, hs, -⟩
      · refine .inl ⟨_, ?_, w, hw, rfl⟩
        rw [closeReference, if_neg word, hu]
        rfl
      · exact .inr (.inl (by simp [hs]))
    · cases ht

theorem Beside.startsReference {s u : Scanner} (h : Beside m a b s u) :
    startsReference u.rest = startsReference s.rest := by
  obtain ⟨w, hs, rfl⟩ := h
  rw [hs]
  cases w <;> rfl

theorem Beside.quote {s u : Scanner} (h : Beside m a b s u) : u.quote = s.quote := by
  obtain ⟨w, -, rfl⟩ := h
  rfl

theorem Beside.escapedDollar {s u : Scanner} (h : Beside m a b s u) : u.escapedDollar = s.escapedDollar := by
  obtain ⟨w, -, rfl⟩ := h
  rfl

theorem Beside.line {s u : Scanner} (h : Beside m a b s u) : u.line = s.line := by
  obtain ⟨w, -, rfl⟩ := h
  rfl

theorem Beside.ne_nil {s u : Scanner} (h : Beside m a b s u) : s.rest ≠ [] := by
  obtain ⟨w, hs, -⟩ := h
  simp [hs]

theorem readFirst_beside {s u s' : Scanner} {c : Char} (hm : IsMark m) (h : Beside m a b s u)
    (hc : s.readFirst = (some c, s')) :
    (∃ u', u.readFirst = (some c, u') ∧ Beside m a b s' u') ∨
      (c = m ∧ s'.rest = a ∧ u.readFirst = (some c, { s' with rest := b })) ∨
      (c = ' ' ∧ s.quote = none ∧ s'.rest.length ≤ a.length) := by
  have quote := h.quote
  rw [readFirst] at hc
  rw [readFirst, quote]
  split at hc
  · next inside =>
    simp only [inside, if_true]
    rcases readRaw_beside h hc with same | mark
    · exact .inl same
    · exact .inr (.inl mark)
  · next outside =>
    simp only [outside, if_false, Bool.false_eq_true]
    rcases readChar_beside hm h hc with same | mark | ⟨blank, past⟩
    · exact .inl same
    · exact .inr (.inl mark)
    · exact .inr (.inr ⟨blank, by simpa using outside, past⟩)

theorem Beside.dollar {s u : Scanner} {cs : Text} (hm : IsMark m) (h : Beside m a b s u) (rest : s.rest = '$' :: cs) :
    ∃ w, cs = w ++ m :: a ∧ u = { s with rest := '$' :: (w ++ m :: b) } := by
  -- a dollar sign is not the mark, so both scanners come to it or neither does
  obtain ⟨w, hw, rfl⟩ := h
  rw [rest] at hw
  cases w with
  | nil => exact absurd (List.cons.inj hw).1.symm (hm.ne '$' (by decide))
  | cons d w =>
    obtain ⟨rfl, rfl⟩ := List.cons.inj hw
    exact ⟨w, rfl, rfl⟩

theorem Beside.symm {s u : Scanner} (h : Beside m a b s u) : Beside m b a u s := by
  obtain ⟨w, hw, rfl⟩ := h
  exact ⟨w, rfl, by rw [← hw]⟩

theorem startsReference_beside (w : Text) : startsReference (w ++ m :: b) = startsReference (w ++ m :: a) := by
  cases w <;> rfl

theorem Beside.plainNext {s u : Scanner} (hm : IsMark m) (h : Beside m a b s u) (plain : s.PlainNext) :
    u.PlainNext := by
  intro cs rest
  obtain ⟨w, rfl, rfl⟩ := h.symm.dollar hm rest
  rw [startsReference_beside (a := a) w]
  exact plain _ rfl

theorem openBraces_beside (hm : IsMark m) : (w : Text) → openBraces (w ++ m :: b) = openBraces (w ++ m :: a)
  | [] => by rcases hm with rfl | rfl <;> rfl
  | [c] => by
    have dollar : m ≠ '$' := hm.ne '$' (by decide)
    simp [openBraces_cons_cons, dollar]
  | c :: d :: w => by
    have rest := openBraces_beside hm w
    simp only [List.cons_append, openBraces_cons_cons, rest]

theorem readToken_beside {s u s' : Scanner} {t : Token} (hm : IsMark m) (set : Specials) (eofAllowed : Bool)
    (h : Beside m a b s u) (ht : readToken set eofAllowed s = .ok t s') :
    (∃ u', readToken set eofAllowed u = .ok t u' ∧ Beside m a b s' u') ∨ Past a s' := by
  induction set, eofAllowed, s using readToken_induction generalizing u t s' with
  | inside set eofAllowed s quote inside plain token =>
    rw [readToken_of_inside set eofAllowed u quote (h.quote.trans inside) (h.plainNext hm plain)]
    exact readString_beside hm quote h (token.symm.trans ht)
  | opening set eofAllowed s c s₁ quote outside first opens token =>
    rcases readFirst_beside hm h first with ⟨u₁, hu, beside⟩ | ⟨rfl, -, -⟩ | ⟨rfl, -, -⟩
    · rw [readToken_of_quote set eofAllowed u c u₁ quote (h.quote.trans outside) hu opens]
      exact readString_beside hm quote beside (token.symm.trans ht)
    · cases hm.ofChar?.symm.trans opens
    · cases opens
  | ended set s outside rest token => exact absurd rest h.ne_nil
  | cut set s outside rest token => exact absurd rest h.ne_nil
  | deep set eofAllowed s cs rest tooDeep token => cases token.symm.trans ht
  | braced set eofAllowed s cs rest few token ih =>
    obtain ⟨name, s₂, inner, close⟩ := closeBraces_eq_ok (token.symm.trans ht)
    obtain ⟨w, hw, rfl⟩ := h.dollar hm rest
    cases w with
    | nil => exact absurd (List.cons.inj hw).1.symm (hm.ne '\x7b' (by decide))
    | cons d w =>
      obtain ⟨rfl, rfl⟩ := List.cons.inj hw
      -- the mark is neither a brace nor a dollar sign, so both texts open the same braces
      have shallow : ¬ maxNesting < openBraces ('\x7b' :: (w ++ m :: b)) := by
        have same := openBraces_beside (a := a) (b := b) hm ('\x7b' :: w)
        rw [List.cons_append, List.cons_append] at same
        rw [same]
        exact Nat.not_lt_of_le few
      rw [readToken_of_braces set eofAllowed _ (w ++ m :: b) rfl, if_neg shallow]
      rcases ih ⟨w, rfl, rfl⟩ inner with ⟨u₂, inner', beside⟩ | past
      · simp only [inner']
        exact closeReference_beside s.quote s.line beside close
      · have := (closeReference_ok _ _ _ _ _ _ close).2
        have := past.length
        exact .inr (.inl (by omega))
  | plain set eofAllowed s cs rest unbraced starts token =>
    obtain ⟨w, rfl, rfl⟩ := h.dollar hm rest
    have unbraced' : (w ++ m :: b).head? ≠ some '\x7b' := by
      cases w with
      | nil => simpa using hm.ne '\x7b' (by decide)
      | cons d w => exact unbraced
    rw [readToken_of_dollar set eofAllowed _ (w ++ m :: b) rfl unbraced'
      ((startsReference_beside (a := a) w).symm ▸ starts)]
    exact readPlainReference_beside hm set s.line ⟨w, rfl, rfl⟩ (token.symm.trans ht)
  | special set eofAllowed s c s₁ outside first other unquoted special token =>
    cases token.symm.trans ht
    rcases readFirst_beside hm h first with ⟨u₁, hu, beside⟩ | ⟨-, behind, -⟩ | ⟨-, -, past⟩
    · refine .inl ⟨u₁, ?_, beside⟩
      rw [readToken_of_special set eofAllowed u c u₁ (h.quote.trans outside) hu other unquoted special, beside.line]
    · exact .inr (.inl (Nat.le_of_eq (by rw [behind])))
    · exact .inr (.inl past)
  | word set eofAllowed s c s₁ outside first other unquoted plain token =>
    cases token.symm.trans ht
    rcases readFirst_beside hm h first with ⟨u₁, hu, beside⟩ | ⟨rfl, -, -⟩ | ⟨-, -, past⟩
    · rcases readWord_beside hm set beside with ⟨u', word, beside'⟩ | past
      · refine .inl ⟨u', ?_, beside'⟩
        rw [readToken_of_word set eofAllowed u c u₁ (h.quote.trans outside) hu other unquoted plain, beside.line, word]
      · exact .inr past
    · rw [hm.contains set] at plain
      cases plain
    · exact .inr (.inl (Nat.le_trans (readWord_length set s₁) past))

/-- A special character leaves the scanners side by side, or it is the mark, or it is the blank for a gap that hides the
mark. -/
theorem readToken_special_beside {s u s' : Scanner} {t : Token} (hm : IsMark m) (set : Specials) (eofAllowed : Bool)
    (h : Beside m a b s u) (ht : readToken set eofAllowed s = .ok t s') (special : t.kind = .special) :
    (∃ u', readToken set eofAllowed u = .ok t u' ∧ Beside m a b s' u') ∨
      (t.text = [m] ∧ s'.rest = a ∧ readToken set eofAllowed u = .ok t { s' with rest := b }) ∨
      (t.text = [' '] ∧ s'.rest.length ≤ a.length) := by
  obtain ⟨c, s₁, first, outside, other, opening, ⟨hc, rfl, rfl⟩ | ⟨-, rfl, -⟩⟩ :=
    readToken_bare set eofAllowed s s' t ht (.inr special)
  · have token (u₁ : Scanner) (hu : u.readFirst = (some c, u₁)) :
        readToken set eofAllowed u = .ok ⟨.special, [c], u₁.line, none⟩ u₁ := by
      exact readToken_of_special set eofAllowed u c u₁ (h.quote.trans outside) hu other opening hc
    rcases readFirst_beside hm h first with ⟨u₁, hu, beside⟩ | ⟨rfl, behind, hu⟩ | ⟨rfl, -, past⟩
    · exact .inl ⟨u₁, by rw [token u₁ hu, beside.line], beside⟩
    · exact .inr (.inl ⟨rfl, behind, token _ hu⟩)
    · exact .inr (.inr ⟨rfl, past⟩)
  · cases special

theorem Past.afterGap {s : Scanner} (h : Past a s) : s.afterGap.rest.length ≤ a.length := by
  rcases h with h | ⟨z, hz, h⟩
  · exact Nat.le_trans s.afterGap_length h
  · have := s.afterGap_length_of_opensGap ' ' z hz (by decide)
    rw [hz, List.length_cons] at this
    omega

theorem readHead_of_token (eofAllowed : Bool) (s s₁ : Scanner) (t : Token)
    (token : readToken .structural eofAllowed s = .ok t s₁) :
    readHead eofAllowed s =
      if t.kind = .eof then .ok .endOfFile s₁
      else if t.isSpecial [' ', ';'] then readHead eofAllowed s₁
      else if t.isSpecial ['\x7d'] then .ok .close s₁
      else if t.isSpecial ['\x7b'] then s₁.fail (.nameExpected '\x7b')
      else if t.isSpecial ['='] then s₁.fail (.nameExpected '=')
      else if t.kind = .word && startsStatement t.text then
        .ok (.named t.text t.line s₁.readNonblank.1) s₁.readNonblank.2
      else s₁.refuse t (.unexpectedToken t.source) := by
  rw [readHead]
  split <;> rename_i h <;> cases token.symm.trans h
  rfl

theorem unread?_readRaw (s : Scanner) : s.readRaw.2.unread? s.readRaw.1 = s := by
  unfold readRaw
  split
  · rfl
  · next c cs hs =>
    simp only [unread?, unread, ← hs]
    split
    · rw [Int.add_sub_cancel]
    · rfl

theorem Beside.readRaw {s u : Scanner} (h : Beside m a b s u) : u.readRaw.1 = s.readRaw.1 := by
  obtain ⟨w, hs, rfl⟩ := h
  simp only [Scanner.readRaw, hs]
  cases w <;> rfl

theorem isSpecial_kind {t : Token} {chars : Text} (h : t.isSpecial chars = true) : t.kind = .special := by
  rw [Token.isSpecial, Bool.and_eq_true, beq_iff_eq] at h
  exact h.1

theorem readHead_named_beside {s u s' : Scanner} {name : Text} {line : Int} {after : Option Char} (hm : IsMark m)
    (eofAllowed : Bool) (h : Beside m a b s u) (head : readHead eofAllowed s = .ok (.named name line after) s') :
    (∃ u', readHead eofAllowed u = .ok (.named name line after) u' ∧
        Beside m a b (s'.unread? after) (u'.unread? after)) ∨
      s'.rest.length + after.toList.length ≤ a.length := by
  fun_induction readHead eofAllowed s generalizing u with
  | case3 s t s₁ token eof blank ih =>
    have bound (past : s₁.rest.length ≤ a.length) : s'.rest.length + after.toList.length ≤ a.length := by
      have := readHead_named_length eofAllowed s₁ s' name line after head
      omega
    rcases readToken_special_beside hm .structural eofAllowed h token (isSpecial_kind blank) with
      ⟨u₁, token', beside⟩ | ⟨-, behind, -⟩ | ⟨-, past⟩
    · rw [readHead_of_token eofAllowed u u₁ t token', if_neg eof, if_pos blank]
      exact ih beside head
    · exact .inr (bound (Nat.le_of_eq (by rw [behind])))
    · exact .inr (bound past)
  | case7 s t s₁ token eof blank close opens assigns word =>
    cases head
    rcases readToken_beside hm .structural eofAllowed h token with ⟨u₁, token', beside⟩ | past
    · have same := readHead_of_token eofAllowed u u₁ t token'
      rw [if_neg eof, if_neg blank, if_neg close, if_neg opens, if_neg assigns, if_pos word] at same
      rcases afterGap_beside hm beside with gap | past
      · have after : u₁.readNonblank.1 = s₁.readNonblank.1 := gap.readRaw
        have back : s₁.readNonblank.2.unread? s₁.readNonblank.1 = s₁.afterGap := unread?_readRaw _
        have back' : u₁.readNonblank.2.unread? u₁.readNonblank.1 = u₁.afterGap := unread?_readRaw _
        refine .inl ⟨u₁.readNonblank.2, by rw [same, after], ?_⟩
        rw [back, ← after, back']
        exact gap
      · have := readRaw_length_le s₁.afterGap
        exact .inr (by simp only [readNonblank]; omega)
    · have := readRaw_length_le s₁.afterGap
      have := past.afterGap
      exact .inr (by simp only [readNonblank]; omega)
  | _ => simp [fail] at head

theorem readHead_close_length (eofAllowed : Bool) (s s' : Scanner) (head : readHead eofAllowed s = .ok .close s') :
    s'.rest.length < s.rest.length := by
  fun_induction readHead eofAllowed s with
  | case3 s t s₁ token eof blank ih =>
    have := readToken_length .structural eofAllowed s s₁ t token eof
    have := ih head
    omega
  | case4 s t s₁ token eof =>
    cases head
    exact readToken_length .structural eofAllowed s s' t token eof
  | _ => simp [fail] at head

theorem readHead_close_beside {s u s' : Scanner} (hm : IsMark m) (eofAllowed : Bool) (h : Beside m a b s u)
    (head : readHead eofAllowed s = .ok .close s') :
    (∃ u', readHead eofAllowed u = .ok .close u' ∧ Beside m a b s' u') ∨
      (s'.rest = a ∧ readHead eofAllowed u = .ok .close { s' with rest := b }) ∨ s'.rest.length < a.length := by
  fun_induction readHead eofAllowed s generalizing u with
  | case3 s t s₁ token eof blank ih =>
    have bound (past : s₁.rest.length ≤ a.length) : s'.rest.length < a.length := by
      have := readHead_close_length eofAllowed s₁ s' head
      omega
    rcases readToken_special_beside hm .structural eofAllowed h token (isSpecial_kind blank) with
      ⟨u₁, token', beside⟩ | ⟨-, behind, -⟩ | ⟨-, past⟩
    · rw [readHead_of_token eofAllowed u u₁ t token', if_neg eof, if_pos blank]
      exact ih beside head
    · exact .inr (.inr (bound (Nat.le_of_eq (by rw [behind]))))
    · exact .inr (.inr (bound past))
  | case4 s t s₁ token eof blank close =>
    cases head
    rcases readToken_special_beside hm .structural eofAllowed h token (isSpecial_kind close) with
      ⟨u₁, token', beside⟩ | ⟨-, behind, token'⟩ | ⟨text, -⟩
    · refine .inl ⟨u₁, ?_, beside⟩
      rw [readHead_of_token eofAllowed u u₁ t token', if_neg eof, if_neg blank, if_pos close]
    · refine .inr (.inl ⟨behind, ?_⟩)
      rw [readHead_of_token eofAllowed u _ t token', if_neg eof, if_neg blank, if_pos close]
    · rw [Token.isSpecial, text] at close
      simp [Text.occursIn] at close
  | _ => simp [fail] at head

theorem readRawValue_of_token (s s₁ : Scanner) (t : Token) (token : readToken .value false s = .ok t s₁) :
    readRawValue s =
      if t.isSpecial ['\x7b', '='] then ([], s₁.fail (.unexpectedInValue t.text))
      else if t.isSpecial [';'] then ([], .ok () s₁)
      else if t.isSpecial ['\x7d'] then ([], .ok () (s₁.unread '\x7d'))
      else (t :: (readRawValue s₁).1, (readRawValue s₁).2) := by
  rw [readRawValue]
  split <;> rename_i h <;> cases token.symm.trans h
  rfl

theorem special_text_of_blank (set : Specials) (eofAllowed : Bool) (s s' : Scanner) (t : Token) (z : Text)
    (blank : s.rest = ' ' :: z) (ht : readToken set eofAllowed s = .ok t s') (special : t.kind = .special) :
    t.text = [' '] := by
  obtain ⟨c, s₁, first, outside, -, -, ⟨-, rfl, -⟩ | ⟨-, rfl, -⟩⟩ :=
    readToken_bare set eofAllowed s s' t ht (.inr special)
  · have gap : opensGap ' ' = true := by decide
    simp only [readFirst, outside, Option.isSome_none, Bool.false_eq_true, if_false, readChar, blank, gap,
      if_true] at first
    cases first
    rfl
  · cases special

theorem readRawValue_past {s s' : Scanner} (past : Past a s) (h : (readRawValue s).2 = .ok () s') :
    s'.rest.length ≤ a.length := by
  fun_induction readRawValue s with
  | case1 => cases h
  | case2 => cases h
  | case3 s t s₁ token =>
    have := readToken_length_of_not_eofAllowed .value s s₁ t token
    have := past.length
    cases h
    omega
  | case4 s t s₁ token _ _ close =>
    have := readToken_length_of_not_eofAllowed .value s s₁ t token
    cases h
    rcases past with short | ⟨z, hz, -⟩
    · simp only [unread, List.length_cons]
      omega
    · have text := special_text_of_blank .value false s s₁ t z hz token (isSpecial_kind close)
      rw [Token.isSpecial, text] at close
      simp [Text.occursIn] at close
  | case5 s t s₁ token _ _ _ ts ending rest ih =>
    have := readToken_length_of_not_eofAllowed .value s s₁ t token
    have := past.length
    exact ih (.inl (by omega)) (by rw [rest]; exact h)

theorem readRawValue_beside {s u s' : Scanner} {ts : List Token} (hm : IsMark m) (h : Beside m a b s u)
    (value : readRawValue s = (ts, .ok () s')) :
    (∃ u', readRawValue u = (ts, .ok () u') ∧ Beside m a b s' u') ∨ s'.rest.length ≤ a.length := by
  fun_induction readRawValue s generalizing u ts with
  | case1 => cases value
  | case2 => cases value
  | case3 s t s₁ token other ends =>
    cases value
    rcases readToken_special_beside hm .value false h token (isSpecial_kind ends) with
      ⟨u₁, token', beside⟩ | ⟨-, behind, -⟩ | ⟨-, past⟩
    · refine .inl ⟨u₁, ?_, beside⟩
      rw [readRawValue_of_token u u₁ t token', if_neg other, if_pos ends]
    · exact .inr (Nat.le_of_eq (by rw [behind]))
    · exact .inr past
  | case4 s t s₁ token other ends close =>
    cases value
    rcases readToken_special_beside hm .value false h token (isSpecial_kind close) with
      ⟨u₁, token', beside⟩ | ⟨text, behind, token'⟩ | ⟨text, -⟩
    · refine .inl ⟨u₁.unread '\x7d', ?_, beside.unread '\x7d'⟩
      rw [readRawValue_of_token u u₁ t token', if_neg other, if_neg ends, if_pos close]
    · have mark : m = '\x7d' := by
        rw [Token.isSpecial, text] at close
        simp only [Text.occursIn, List.isPrefixOf_cons_cons, List.isPrefixOf_nil_left, Bool.and_true, List.isEmpty_cons,
          Bool.or_false, Bool.and_eq_true, beq_iff_eq] at close
        exact close.2
      subst mark
      refine .inl ⟨_, ?_, .of_unread_mark hm s₁ behind⟩
      rw [readRawValue_of_token u _ t token', if_neg other, if_neg ends, if_pos close]
    · rw [Token.isSpecial, text] at close
      simp [Text.occursIn] at close
  | case5 s t s₁ token other ends close rest ending hr ih =>
    cases value
    rcases readToken_beside hm .value false h token with ⟨u₁, token', beside⟩ | past
    · rcases ih beside hr with ⟨u', value', beside'⟩ | past
      · refine .inl ⟨u', ?_, beside'⟩
        rw [readRawValue_of_token u u₁ t token', if_neg other, if_neg ends, if_neg close, value']
      · exact .inr past
    · exact .inr (readRawValue_past past (by rw [hr]))

theorem readLazyValue_beside {s u s' : Scanner} {ts : List Token} (hm : IsMark m) (h : Beside m a b s u)
    (value : readLazyValue s = .ok ts s') :
    (∃ u', readLazyValue u = .ok ts u' ∧ Beside m a b s' u') ∨ s'.rest.length ≤ a.length := by
  rw [readLazyValue] at value
  split at value
  · next raw s₁ hr =>
    cases value
    rcases readRawValue_beside hm h hr with ⟨u', hr', beside⟩ | past
    · refine .inl ⟨u', ?_, beside⟩
      rw [readLazyValue, hr']
    · exact .inr past
  · cases value

theorem CommandAt.length {s s' : Scanner} {c : WrittenCommand} (h : CommandAt s c s') :
    s'.rest.length < s.rest.length := by
  cases h with
  | intro s₁ _ name line after arguments head assigns opens plain value =>
    have := readHead_named_length false s s₁ name line after head
    have := readLazyValue_length _ _ _ value
    rw [unread?_length] at this
    omega

theorem HandlerAt.length {s s' : Scanner} {cs : List WrittenCommand} (h : HandlerAt s cs s') :
    s'.rest.length < s.rest.length := by
  induction h with
  | close s s' head => exact readHead_close_length false s s' head
  | command s s₁ s' c cs first rest ih =>
    have := first.length
    omega

theorem BodyAt.length {s s' : Scanner} {items : List BodyItem} (h : BodyAt s items s') :
    s'.rest.length < s.rest.length := by
  induction h with
  | close s s' head => exact readHead_close_length false s s' head
  | assignment s s₁ s₂ s' name line value items head plain tokens rest ih =>
    have := readHead_named_length false s s₁ name line _ head
    have := readRawValue_length s₁ s₂ (by rw [tokens])
    omega
  | handler s s₁ s₂ s' name line cs items head handler commands rest ih =>
    have := readHead_named_length false s s₁ name line _ head
    have := commands.length
    omega
  | command s s₁ s' c items first rest ih =>
    have := first.length
    omega

theorem CommandAt.beside {s u s' : Scanner} {c : WrittenCommand} (hm : IsMark m) (h : Beside m a b s u)
    (hc : CommandAt s c s') :
    (∃ u', CommandAt u c u' ∧ Beside m a b s' u') ∨ s'.rest.length ≤ a.length := by
  cases hc with
  | intro s₁ _ name line after arguments head assigns opens plain value =>
    rcases readHead_named_beside hm false h head with ⟨u₁, head', beside⟩ | past
    · rcases readLazyValue_beside hm beside value with ⟨u', value', beside'⟩ | past
      · refine .inl ⟨u', ?_, beside'⟩
        rw [← beside'.line]
        exact .intro u u₁ u' name line after arguments head' assigns opens plain value'
      · exact .inr past
    · have := readLazyValue_length _ _ _ value
      rw [unread?_length] at this
      exact .inr (by omega)

theorem HandlerAt.beside {s u s' : Scanner} {cs : List WrittenCommand} (hm : IsMark m) (h : Beside m a b s u)
    (hcs : HandlerAt s cs s') :
    (∃ u', HandlerAt u cs u' ∧ Beside m a b s' u') ∨ s'.rest.length ≤ a.length := by
  induction hcs generalizing u with
  | close s s' head =>
    rcases readHead_close_beside hm false h head with ⟨u', head', beside⟩ | ⟨behind, -⟩ | past
    · exact .inl ⟨u', .close u u' head', beside⟩
    · exact .inr (Nat.le_of_eq (by rw [behind]))
    · exact .inr (Nat.le_of_lt past)
  | command s s₁ s' c cs first rest ih =>
    rcases first.beside hm h with ⟨u₁, first', beside⟩ | past
    · rcases ih beside with ⟨u', rest', beside'⟩ | past
      · exact .inl ⟨u', .command u u₁ u' c cs first' rest', beside'⟩
      · exact .inr past
    · have := rest.length
      exact .inr (by omega)

theorem Beside.of_unread {s u : Scanner} {c : Char} (h : Beside m a b (s.unread c) (u.unread c)) (hc : c ≠ m) :
    Beside m a b s u := by
  obtain ⟨w, hs, hu⟩ := h
  cases w with
  | nil => exact absurd (List.cons.inj hs).1 hc
  | cons d w =>
    obtain ⟨rest, line, quote, escapedDollar⟩ := s
    obtain ⟨rest', line', quote', escapedDollar'⟩ := u
    simp only [Scanner.unread, List.cons_append, List.cons.injEq, mk.injEq] at hs hu
    obtain ⟨⟨-, rfl⟩, lines, rfl, rfl⟩ := hu
    have same : line' = line := by
      split at lines <;> omega
    exact ⟨w, hs.2, by rw [same]⟩

theorem BodyAt.beside {s u s' : Scanner} {items : List BodyItem} (hm : IsMark m) (h : Beside m a b s u)
    (body : BodyAt s items s') (ends : s'.rest = a) : BodyAt u items { s' with rest := b } := by
  -- Once the mark is passed, less is left at the end than stands behind the mark.
  have short (x : Scanner) (items : List BodyItem) (past : x.rest.length ≤ a.length) (rest : BodyAt x items s') :
      False := by
    have := rest.length
    rw [ends] at this
    omega
  induction body generalizing u with
  | close s s' head =>
    rcases readHead_close_beside hm false h head with ⟨u', head', w, hw, -⟩ | ⟨-, head'⟩ | past
    · rw [ends] at hw
      have := congrArg List.length hw
      simp only [List.length_append, List.length_cons] at this
      omega
    · exact .close u _ head'
    · rw [ends] at past
      omega
  | assignment s s₁ s₂ s' name line value items head plain tokens rest ih =>
    rcases readHead_named_beside hm false h head with ⟨u₁, head', beside⟩ | past
    · have beside₁ : Beside m a b s₁ u₁ := beside.of_unread (hm.ne '=' (by decide)).symm
      rcases readRawValue_beside hm beside₁ tokens with ⟨u₂, tokens', beside₂⟩ | past
      · exact .assignment u u₁ u₂ _ name line value items head' plain tokens' (ih beside₂ ends short)
      · exact (short s₂ items past rest).elim
    · have := readRawValue_length s₁ s₂ (by rw [tokens])
      exact (short s₂ items (by omega) rest).elim
  | handler s s₁ s₂ s' name line cs items head handler commands rest ih =>
    rcases readHead_named_beside hm false h head with ⟨u₁, head', beside⟩ | past
    · have beside₁ : Beside m a b s₁ u₁ := beside.of_unread (hm.ne '\x7b' (by decide)).symm
      rcases commands.beside hm beside₁ with ⟨u₂, commands', beside₂⟩ | past
      · exact .handler u u₁ u₂ _ name line cs items head' handler commands' (ih beside₂ ends short)
      · exact (short s₂ items past rest).elim
    · have := commands.length
      exact (short s₂ items (by omega) rest).elim
  | command s s₁ s' c items first rest ih =>
    rcases first.beside hm h with ⟨u₁, first', beside⟩ | past
    · exact .command u u₁ _ c items first' (ih beside ends short)
    · exact (short s₁ items past rest).elim

end DeviceProtocol.Scanner
