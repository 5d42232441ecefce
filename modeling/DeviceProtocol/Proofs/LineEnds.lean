import DeviceProtocol.Proofs.FaultLines
import DeviceProtocol.Proofs.LaterLines
import DeviceProtocol.Proofs.RemainingText
set_option autoImplicit false

/-!
Lines that are read one after the other. Where a line ends no word, no string and no comment goes on, so the tokens of
whole lines are the same whatever text follows, and the tokens of that text are those it has alone, at later lines. A
text that starts with white space or with a comment would prolong the gap at the end of the lines.
-/
namespace DeviceProtocol

namespace Scanner

/-- What is left ends with the end of a line, or it is the blanks that were put back for a gap at the end. -/
def LinesEnd (cs : Text) : Prop := (∀ c ∈ cs, c = ' ') ∨ cs.getLast? = some '\n'

def Fresh (b : Text) : Prop := ∀ c, b.head? = some c → opensGap c = false

namespace LinesEnd

variable {c : Char} {cs ds : Text}

theorem suffix (h : LinesEnd cs) (part : ds <:+ cs) : LinesEnd ds := by
  obtain ⟨front, rfl⟩ := part
  cases h with
  | inl blank => exact .inl fun c mem => blank c (List.mem_append_right front mem)
  | inr last =>
    cases ds with
    | nil => exact .inl fun c mem => absurd mem List.not_mem_nil
    | cons d ds => exact .inr (by simpa [List.getLast?_append] using last)

theorem tail (h : LinesEnd (c :: cs)) : LinesEnd cs := h.suffix (List.suffix_cons c cs)

theorem blank (h : LinesEnd cs) : LinesEnd (' ' :: cs) := by
  cases h with
  | inl blank => exact .inl (by simpa using blank)
  | inr last =>
    cases cs with
    | nil => cases last
    | cons c cs => exact .inr (by simpa [List.getLast?_cons_cons] using last)

theorem mem (h : LinesEnd cs) (some : cs ≠ []) : ' ' ∈ cs ∨ '\n' ∈ cs := by
  cases h with
  | inl blank =>
    obtain ⟨c, ds, rfl⟩ := List.exists_cons_of_ne_nil some
    rw [blank c List.mem_cons_self]
    exact .inl List.mem_cons_self
  | inr last => exact .inr (List.mem_of_getLast? last)

theorem ne_nil (h : LinesEnd (c :: cs)) (other : c ≠ ' ') (newline : c ≠ '\n') : cs ≠ [] := by
  rintro rfl
  cases h with
  | inl all => exact other (all c List.mem_cons_self)
  | inr last => exact newline (Option.some.inj last)

end LinesEnd

theorem readToken_linesEnd (set : Specials) (eofAllowed : Bool) (s s' : Scanner) (t : Token)
    (h : readToken set eofAllowed s = .ok t s') (ends : LinesEnd s.rest) : LinesEnd s'.rest :=
  (readToken_remains set eofAllowed s s' t h).keeps (fun ends part => ends.suffix part) LinesEnd.blank ends

section Seam

variable {b : Text} (fresh : Fresh b)

include fresh

theorem skipGap_seam (comment : Bool) (cs : Text) (line : Int) (ends : LinesEnd cs)
    (closed : comment = true → cs.getLast? = some '\n') :
    skipGap comment (cs ++ b) line = ((skipGap comment cs line).1 ++ b, (skipGap comment cs line).2) := by
  -- inside a comment, `closed` keeps the end of its line in the text
  induction cs generalizing comment line with
  | nil =>
    cases comment with
    | true => cases closed rfl
    | false =>
      cases b with
      | nil => rfl
      | cons d ds =>
        have solid := fresh d rfl
        simp only [opensGap, Bool.or_eq_false_iff, beq_eq_false_iff_ne] at solid
        simp [skipGap, solid]
  | cons c cs ih =>
    have last (other : c ≠ '\n') (newline : (c :: cs).getLast? = some '\n') : cs.getLast? = some '\n' := by
      cases cs with
      | nil => exact absurd (Option.some.inj newline) other
      | cons d ds => rwa [List.getLast?_cons_cons] at newline
    have plain (line : Int) := ih false line ends.tail (by simp)
    cases comment with
    | true =>
      simp only [List.cons_append, skipGap]
      by_cases newline : c = '\n'
      · simp only [newline, if_true, plain]
      · simp only [newline, if_false]
        exact ih true line ends.tail fun _ => last newline (closed rfl)
    | false =>
      simp only [List.cons_append, skipGap]
      by_cases comment : c = '#'
      · subst comment
        simp only [if_true]
        refine ih true line ends.tail fun _ => ?_
        cases ends with
        | inl blank => cases blank '#' List.mem_cons_self
        | inr newline => exact last (by decide) newline
      · simp only [comment, if_false]
        split
        · exact plain _
        · rfl

theorem afterGap_seam (s : Scanner) (ends : LinesEnd s.rest) : (s.followedBy b).afterGap = s.afterGap.followedBy b := by
  simp only [afterGap, followedBy, skipGap_seam fresh false s.rest s.line ends (by simp)]

theorem readChar_seam (s s' : Scanner) (c : Char) (h : s.readChar = (some c, s')) (ends : LinesEnd s.rest) :
    (s.followedBy b).readChar = (some c, s'.followedBy b) := by
  cases hs : s.rest with
  | nil => simp [readChar, hs] at h
  | cons d ds =>
    have behind : (s.followedBy b).rest = d :: (ds ++ b) := by simp [followedBy, hs]
    simp only [readChar, hs] at h
    simp only [readChar, behind]
    cases gap : opensGap d with
    | true =>
      simp only [gap, if_true] at h ⊢
      cases h
      rw [afterGap_seam fresh s ends]
    | false =>
      simp only [gap, Bool.false_eq_true, if_false] at h ⊢
      exact readRaw_followedBy b s s' c h

theorem readFirst_seam (s s' : Scanner) (c : Char) (h : s.readFirst = (some c, s')) (ends : LinesEnd s.rest) :
    (s.followedBy b).readFirst = (some c, s'.followedBy b) := by
  rw [readFirst] at h ⊢
  split at h
  · next inside =>
    rw [if_pos (show (s.followedBy b).quote.isSome = true from inside)]
    exact readRaw_followedBy b s s' c h
  · next outside =>
    rw [if_neg (show ¬ (s.followedBy b).quote.isSome = true from outside)]
    exact readChar_seam fresh s s' c h ends

theorem readWord_seam (set : Specials) (blank : set.contains ' ' = true) (s : Scanner) (some : s.rest ≠ [])
    (ends : LinesEnd s.rest) :
    readWord set (s.followedBy b) = ((readWord set s).1, (readWord set s).2.followedBy b) := by
  fun_induction readWord set s with
  | case1 s s₁ char => exact absurd (rest_of_readChar_none s s₁ char) some
  | case2 s c s₁ char special =>
    rw [readWord_of_char set _ _ c (readChar_seam fresh s s₁ c char ends), if_pos special]
    rfl
  | case3 s c s₁ char special tail ih =>
    have other : c ≠ ' ' := by
      rintro rfl
      exact special blank
    obtain ⟨newline, hs⟩ := rest_of_readChar s s₁ c char other
    have ends' : LinesEnd (c :: s₁.rest) := hs ▸ ends
    rw [readWord_of_char set _ _ c (readChar_seam fresh s s₁ c char ends), if_neg special,
      ih (ends'.ne_nil other newline) ends'.tail]

theorem readPlainReference_seam (set : Specials) (blank : set.contains ' ' = true) (line : Int) (s s' : Scanner)
    (t : Token) (h : readPlainReference set line s = .ok t s') (ends : LinesEnd s.rest) :
    readPlainReference set line (s.followedBy b) = .ok t (s'.followedBy b) := by
  refine readPlainReference_followedBy_of_ends b set line s s' t h (fun drop => ?_) fun c head plain same => ?_
  · -- neither a blank nor the end of a line is a character of a name
    intro none
    have some : s.rest ≠ [] := by
      intro none
      rw [readPlainReference, none] at h
      cases h
    have named : s.rest.takeWhile isNameChar = s.rest := by
      have parts := List.takeWhile_append_dropWhile (p := isNameChar) (l := s.rest)
      rwa [← drop, none, List.append_nil] at parts
    have all := List.all_eq_true.mp (List.all_takeWhile (p := isNameChar) (l := s.rest))
    rw [named] at all
    rcases ends.mem some with last | last <;> exact absurd (all _ last) (by decide)
  · subst same
    cases hs : s.rest with
    | nil => simp [hs] at head
    | cons d ds =>
      obtain rfl : d = c := by simpa [hs] using head
      rw [Bool.or_eq_false_iff] at plain
      rw [hs] at ends
      have left : s.readRaw.2.rest = ds := by simp [readRaw, hs]
      refine readWord_seam fresh set blank _ ?_ ?_
      · rw [left]
        refine ends.ne_nil ?_ ?_ <;> rintro rfl
        · simp [blank] at plain
        · exact absurd plain.2 (by decide)
      · rw [left]
        exact ends.tail

theorem readToken_seam (set : Specials) (blank : set.contains ' ' = true) (eofAllowed : Bool) (s s' : Scanner) (t : Token)
    (h : readToken set eofAllowed s = .ok t s') (more : t.kind ≠ .eof) (ends : LinesEnd s.rest) :
    readToken set eofAllowed (s.followedBy b) = .ok t (s'.followedBy b) := by
  refine readToken_followedBy_of_ends b set eofAllowed s s' t h more ?_ ?_ ?_ ?_
  · intro c s₁ first
    exact readFirst_seam fresh s s₁ c first ends
  · intro u u' name _ inner left
    exact readToken_followedBy b .braced false u u' name inner (absurd · left)
  · intro u same reference
    refine readPlainReference_seam fresh set blank u.line u s' t reference ?_
    rw [same]
    exact ends.suffix s.readFirst_suffix
  · rintro c s₁ first outside special - rfl
    have char : s.readChar = (some c, s₁) := by simpa [readFirst, outside] using first
    have other : c ≠ ' ' := by
      rintro rfl
      rw [blank] at special
      cases special
    obtain ⟨newline, hs⟩ := rest_of_readChar s s₁ c char other
    rw [hs] at ends
    exact readWord_seam fresh set blank s₁ (ends.ne_nil other newline) ends.tail

end Seam

theorem readToken_eof (set : Specials) (eofAllowed : Bool) (s s' : Scanner) (t : Token)
    (h : readToken set eofAllowed s = .ok t s') (eof : t.kind = .eof) :
    t = ⟨.eof, [], s.line, none⟩ ∧ s' = s ∧ s.rest = [] ∧ s.quote = none := by
  rcases readToken_ok_cases set eofAllowed s s' t h with
    ⟨quote, s₁, string⟩ | reference | ended | ⟨c, s₁, -, -, -, -, ⟨-, rfl, -⟩ | ⟨-, rfl, -⟩⟩
  · cases (readString_ok quote s₁ s' t string).1.symm.trans eof
  · cases reference.symm.trans eof
  · exact ended
  · cases eof
  · cases eof

def behind (front : List Token) : Result (List Token) → Result (List Token)
  | .ok ts s => .ok (front ++ ts) s
  | .error e s => .error e s

/-- The tokens of whole lines come first, then reading goes on behind the lines as if it started there. -/
theorem tokens_seam {b : Text} (fresh : Fresh b) (s s' : Scanner) (ts : List Token) (h : s.tokens = .ok ts s')
    (start : s.DollarNext) (ends : LinesEnd s.rest) :
    ∃ front, ts = front ++ [⟨.eof, [], s.lastLine, none⟩] ∧
      (s.followedBy b).tokens = behind front ({ rest := b, line := s.lastLine } : Scanner).tokens := by
  fun_induction tokens s generalizing ts with
  | case1 => cases h
  | case2 s t s₁ token eof =>
    cases h
    obtain ⟨rfl, rfl, none, outside⟩ := readToken_eof _ _ _ _ _ token eof
    have last : s'.lastLine = s'.line := by simp [lastLine, none]
    have there : s'.followedBy b = { rest := b, line := s'.line } := by
      have noted := start.of_quote outside
      obtain ⟨rest, line, quote, escapedDollar⟩ := s'
      cases none
      cases outside
      cases noted
      rfl
    refine ⟨[], by rw [last]; rfl, ?_⟩
    rw [last, there]
    cases ({ rest := b, line := s'.line } : Scanner).tokens <;> rfl
  | case3 => cases h
  | case4 s t s₁ token more us s₂ rest ih =>
    cases h
    have last := readToken_lastLine _ _ s s₁ t token
    obtain ⟨front, rfl, behind⟩ := ih us rest (readToken_dollarNext _ _ s s₁ t start token)
      (readToken_linesEnd _ _ s s₁ t token ends)
    rw [last] at behind
    have token' := readToken_seam fresh .value (by decide) true s s₁ t token more ends
    refine ⟨t :: front, by rw [last]; rfl, ?_⟩
    rw [tokens_of_token _ _ t token', if_neg more, behind]
    cases ({ rest := b, line := s.lastLine } : Scanner).tokens <;> rfl

end Scanner

/-- The tokens of lines and of a text behind them are the tokens of the lines without the end of the source, then those
of the text, as many lines later as there are lines in front of it. A fault in the text is the same one, at the later
line, and references that are nested too deeply in the text are so behind the lines. -/
theorem tokenize_append_line (a b : Text) (ts : List Token) (line : a.getLast? = some '\n') (read : tokenize a = .ok ts)
    (fresh : ∀ c, b.head? = some c → isSpace c = false ∧ c ≠ '#') :
    ts = ts.dropLast ++ [⟨.eof, [], 1 + a.count '\n', none⟩] ∧
      (∀ us, tokenize b = .ok us →
        tokenize (a ++ b) = .ok (ts.dropLast ++ us.map fun t => { t with line := t.line + a.count '\n' })) ∧
      ∀ e, tokenize b = .error e →
        (∃ cause line, e = .fault { cause := cause, line := some line } ∧
          tokenize (a ++ b) = .error (.fault { cause := cause, line := some (line + a.count '\n') })) ∨
        (e = .crash .deepNesting ∧ tokenize (a ++ b) = .error e) := by
  have solid : Scanner.Fresh b := by
    intro c head
    simp [Scanner.opensGap, fresh c head]
  rw [tokenize] at read
  split at read <;> cases read
  next s' whole =>
  obtain ⟨front, rfl, behind⟩ := Scanner.tokens_seam solid _ s' ts whole (Scanner.dollarNext_of_false rfl) (.inr line)
  have later : (Scanner.ofSource (a ++ b)).tokens =
      Scanner.behind front ((Scanner.ofSource b).later (a.count '\n')).tokens := behind
  rw [Scanner.tokens_later] at later
  rw [List.dropLast_concat]
  refine ⟨rfl, ?_, ?_⟩
  · intro us read
    rw [tokenize] at read
    split at read <;> cases read
    next s₂ tokens =>
    rw [tokenize, later, tokens]
    rfl
  · intro e read
    have advances := (Scanner.ofSource b).tokens_advances
    rw [tokenize] at read
    split at read <;> cases read
    next s₂ tokens =>
    obtain ⟨-, ⟨cause, rfl⟩ | rfl⟩ := advances.of_error tokens
    · refine .inl ⟨cause, s₂.line, rfl, ?_⟩
      rw [tokenize, later, tokens]
      rfl
    · refine .inr ⟨rfl, ?_⟩
      rw [tokenize, later, tokens]
      rfl

/-- A reference in a string and a comment stand in front of a braced reference, and of a string that is not closed. -/
theorem tokenize_append_line_comment :
    let a := "\"a$b\" # '\n".toList
    let front : List Token := [⟨.string, ['a'], 1, some .double⟩, ⟨.reference, ['b'], 1, some .double⟩,
      ⟨.string, [], 1, some .double⟩, ⟨.special, [' '], 2, none⟩]
    (a.getLast? = some '\n' ∧ tokenize a = .ok (front ++ [⟨.eof, [], 2, none⟩])) ∧
      tokenize (a ++ "$\x7bc\x7d".toList) = .ok (front ++ [⟨.reference, ['c'], 2, none⟩, ⟨.eof, [], 2, none⟩]) ∧
      tokenize (a ++ "\"c\n".toList) = .error (.fault { cause := .unterminatedString .double ['c'], line := some 3 }) := by
  intro a front
  have line : a.getLast? = some '\n' := by decide
  have read : tokenize a = .ok (front ++ [⟨.eof, [], 2, none⟩]) := by decide +kernel
  refine ⟨⟨line, read⟩, ?_, ?_⟩
  · obtain ⟨-, tokens, -⟩ := tokenize_append_line a "$\x7bc\x7d".toList _ line read
      (by rintro c ⟨⟩; decide)
    exact tokens [⟨.reference, ['c'], 1, none⟩, ⟨.eof, [], 1, none⟩] (by decide +kernel)
  · obtain ⟨-, -, fault⟩ := tokenize_append_line a "\"c\n".toList _ line read
      (by rintro c ⟨⟩; decide)
    obtain ⟨cause, line, same, failed⟩ | ⟨other, -⟩ :=
      fault (.fault { cause := .unterminatedString .double ['c'], line := some 2 }) (by decide +kernel)
    · cases same
      exact failed
    · cases other

end DeviceProtocol
