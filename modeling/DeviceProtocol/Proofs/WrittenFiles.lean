import DeviceProtocol.Proofs.Grammar
import DeviceProtocol.Proofs.TextAppended
set_option autoImplicit false

namespace DeviceProtocol

namespace Grammar

def isNameChar (c : Char) : Bool := isWordChar c || c == '@'

/-- The scanner takes the character as it is, and as a part of a word. -/
structure Bare (c : Char) : Prop where
  small : lowerChar c = [c]
  solid : Scanner.opensGap c = false
  structural : Specials.structural.contains c = false
  value : Specials.value.contains c = false

theorem ascii_of_isNameChar (c : Char) (h : isNameChar c = true) : c.toNat < 0x80 := by
  simp only [isNameChar, isWordChar, isSmallLetter, isDecimalDigit, Bool.or_eq_true, Bool.and_eq_true,
    decide_eq_true_eq, beq_iff_eq] at h
  rcases h with ((⟨-, h⟩ | ⟨-, h⟩) | rfl) | rfl
  · exact Nat.lt_of_le_of_lt (show c.toNat ≤ 122 from h) (by decide)
  · exact Nat.lt_of_le_of_lt (show c.toNat ≤ 57 from h) (by decide)
  · decide
  · decide

theorem bare_of_isNameChar (c : Char) (h : isNameChar c = true) : Bare c := by
  obtain ⟨small, solid, structural, value⟩ := forall_ascii
    (fun c => isNameChar c = true → lowerChar c = [c] ∧ Scanner.opensGap c = false ∧
      Specials.structural.contains c = false ∧ Specials.value.contains c = false)
    (by decide +kernel) c (ascii_of_isNameChar c h) h
  exact ⟨small, solid, structural, value⟩

theorem bare_of_isWordChar (c : Char) (h : isWordChar c = true) : Bare c :=
  bare_of_isNameChar c (by simp [isNameChar, h])

/-- The signs of the grammar. -/
def signs : Text := [',', ';', '=', '(', ')', '\x7b', '\x7d']

theorem Bare.not_mem_signs {c : Char} (h : Bare c) : c ∉ signs := by
  have table : signs.all Specials.structural.contains = true := by decide
  intro sign
  simpa [List.all_eq_true.mp table c sign] using h.structural

theorem blanks_succ (n : Nat) : blanks (n + 1) = ' ' :: blanks n := rfl

def oneBlank (n : Nat) : Text := blanks (min n 1)

theorem oneBlank_succ (n : Nat) : oneBlank (n + 1) = [' '] := by
  simp [oneBlank, blanks]

def blankTokens (n : Nat) : List Token := List.replicate (min n 1) blank

theorem blankTokens_succ (n : Nat) : blankTokens (n + 1) = [blank] := by
  simp [blankTokens]

theorem blankTokens_min (n : Nat) : blankTokens (min n 1) = blankTokens n := by
  simp [blankTokens]

end Grammar

namespace Scanner

open Grammar

variable (t : Text) (c : Char)

theorem ne_newline_of_solid (solid : opensGap c = false) : c ≠ '\n' := by
  rintro rfl
  cases solid

theorem skipGap_blanks (n : Nat) (line : Int) : skipGap false (blanks n ++ t) line = skipGap false t line := by
  have space : isSpace ' ' = true := by decide
  induction n with
  | zero => rfl
  | succ n ih =>
    rw [blanks_succ, List.cons_append, skipGap, if_neg (by decide), if_pos space, if_neg (by decide)]
    exact ih

theorem afterGap_blanks (n : Nat) : (ofSource (blanks n ++ t)).afterGap = (ofSource t).afterGap := by
  simp only [afterGap, ofSource, skipGap_blanks]

theorem afterGap_solid (solid : opensGap c = false) : (ofSource (c :: t)).afterGap = ofSource (c :: t) := by
  simp only [opensGap, Bool.or_eq_false_iff, beq_eq_false_iff_ne] at solid
  simp [afterGap, ofSource, skipGap, solid]

theorem readRaw_solid (solid : opensGap c = false) : (ofSource (c :: t)).readRaw = (some c, ofSource t) := by
  simp [readRaw, ofSource, ne_newline_of_solid c solid]

theorem unread_solid (solid : opensGap c = false) : (ofSource t).unread c = ofSource (c :: t) := by
  simp [unread, ofSource, ne_newline_of_solid c solid]

theorem readChar_solid (solid : opensGap c = false) : (ofSource (c :: t)).readChar = (some c, ofSource t) := by
  rw [← readRaw_solid t c solid]
  simp [readChar, ofSource, solid]

theorem readChar_blanks (n : Nat) (solid : opensGap c = false) :
    (ofSource (blanks (n + 1) ++ c :: t)).readChar = (some ' ', ofSource (c :: t)) := by
  have gap : opensGap ' ' = true := by decide
  rw [← afterGap_solid t c solid, ← afterGap_blanks (c :: t) (n + 1)]
  simp [readChar, blanks_succ, ofSource, gap]

theorem readNonblank_blanks (n : Nat) (solid : opensGap c = false) :
    (ofSource (blanks n ++ c :: t)).readNonblank = (some c, ofSource t) := by
  rw [readNonblank, afterGap_blanks, afterGap_solid t c solid, readRaw_solid t c solid]

theorem readFirst_solid (solid : opensGap c = false) : (ofSource (c :: t)).readFirst = (some c, ofSource t) :=
  readChar_solid t c solid

theorem readFirst_blanks (n : Nat) (solid : opensGap c = false) :
    (ofSource (blanks (n + 1) ++ c :: t)).readFirst = (some ' ', ofSource (c :: t)) := readChar_blanks t c n solid

theorem readPiece_plain (text : Text) (line : Int) (plain : ∀ d ∈ text, isPlainChar d = true) :
    readPiece .double line (text ++ '"' :: t) = ⟨text, .closed, t, line⟩ := by
  induction text with
  | nil => simp [readPiece_cons, Quote.char]
  | cons d text ih =>
    rw [List.forall_mem_cons] at plain
    have other := plain.1
    simp only [isPlainChar, Bool.and_eq_true, bne_iff_ne, ne_eq] at other
    have quote : d ≠ Quote.double.char := other.1.1.1
    rw [List.cons_append, readPiece_char .double line d _ other.2 quote other.1.1.2 fun h => absurd h other.1.2, ih plain.2]
    rfl

theorem readToken_string (set : Specials) (eofAllowed : Bool) (text : Text) (plain : ∀ d ∈ text, isPlainChar d = true) :
    readToken set eofAllowed (ofSource ('"' :: text ++ '"' :: t)) =
      .ok ⟨.string, text, 1, some .double⟩ (ofSource t) := by
  have first := readFirst_solid (text ++ '"' :: t) '"' (by decide)
  rw [List.cons_append, readToken_of_quote set eofAllowed _ '"' _ .double rfl first rfl]
  simp [ofSource, readString, readPiece_plain t text 1 plain]

theorem readToken_digit (set : Specials) (eofAllowed : Bool) (k : Fin 10) :
    readToken set eofAllowed (ofSource ('$' :: Nat.digitChar k :: t)) =
      .ok ⟨.reference, [Nat.digitChar k], 1, none⟩ (ofSource t) := by
  have table : ∀ k : Fin 10, isDigit (Nat.digitChar k) = true ∧ Nat.digitChar k ≠ '\x7b' ∧
      opensGap (Nat.digitChar k) = false := by
    decide
  obtain ⟨digit, brace, solid⟩ := table k
  rw [readToken_of_dollar set eofAllowed _ (Nat.digitChar k :: t) rfl (by simp [brace]) rfl]
  simp [readPlainReference, ofSource, readRaw, digit, ne_newline_of_solid _ solid]

theorem readWord_append (set : Specials) (w : Text) (word : ∀ d ∈ w, Bare d) (free : ∀ d ∈ w, set.contains d = false) :
    readWord set (ofSource (w ++ t)) = (w ++ (readWord set (ofSource t)).1, (readWord set (ofSource t)).2) := by
  induction w with
  | nil => rfl
  | cons d w ih =>
    rw [List.forall_mem_cons] at word free
    rw [List.cons_append, readWord_of_char set _ _ d (readChar_solid _ d word.1.solid), if_neg (by simp [free.1]),
      ih word.2 free.2, word.1.small]
    rfl

theorem readToken_append (set : Specials) (eofAllowed : Bool) (w : Text) (spelled : w ≠ []) (word : ∀ d ∈ w, Bare d)
    (free : ∀ d ∈ w, set.contains d = false) :
    readToken set eofAllowed (ofSource (w ++ t)) =
      .ok ⟨.word, w ++ (readWord set (ofSource t)).1, 1, none⟩ (readWord set (ofSource t)).2 := by
  obtain ⟨d, w, rfl⟩ := List.exists_cons_of_ne_nil spelled
  rw [List.forall_mem_cons] at word free
  have dollar : d ≠ '$' := by
    rintro rfl
    cases word.1.structural
  have quote : Quote.ofChar? d = none := by
    cases hq : Quote.ofChar? d with
    | none => rfl
    | some q =>
      rw [Quote.ofChar?_eq_some_iff] at hq
      subst hq
      cases q <;> cases word.1.structural
  have first := readFirst_solid (w ++ t) d word.1.solid
  rw [List.cons_append, readToken_of_word set eofAllowed _ d _ rfl first dollar quote free.1,
    readWord_append t set w word.2 free.2, word.1.small]
  rfl

/-- The sets of special characters that end words outside of braces around references. -/
def Ordinary (set : Specials) : Prop := set = .structural ∨ set = .value

theorem Ordinary.blank {set : Specials} (h : Ordinary set) : set.contains ' ' = true := by
  rcases h with rfl | rfl <;> decide

theorem Ordinary.bare {set : Specials} (h : Ordinary set) (bare : Bare c) : set.contains c = false := by
  rcases h with rfl | rfl
  · exact bare.structural
  · exact bare.value

section

variable {set : Specials} (ordinary : Ordinary set)
include ordinary

theorem readToken_sign (eofAllowed : Bool) (sign : c ∈ signs) :
    readToken set eofAllowed (ofSource (c :: t)) = .ok ⟨.special, [c], 1, none⟩ (ofSource t) := by
  have table : signs.all (fun c => Specials.structural.contains c && Specials.value.contains c && !opensGap c &&
      c != '$' && (Quote.ofChar? c).isNone) = true := by
    decide
  have row := List.all_eq_true.mp table c sign
  simp only [Bool.and_eq_true, Bool.not_eq_true', bne_iff_ne, Option.isNone_iff_eq_none] at row
  obtain ⟨⟨⟨⟨structural, value⟩, solid⟩, dollar⟩, quote⟩ := row
  have special : set.contains c = true := by
    rcases ordinary with rfl | rfl
    · exact structural
    · exact value
  exact readToken_special set eofAllowed _ c t rfl rfl special solid dollar quote

theorem readWord_stop (n : Nat) (solid : opensGap c = false) (ends : n = 0 → set.contains c = true) :
    readWord set (ofSource (blanks n ++ c :: t)) = ([], ofSource (oneBlank n ++ c :: t)) := by
  cases n with
  | zero =>
    show readWord set (ofSource (c :: t)) = ([], ofSource (c :: t))
    rw [readWord_of_char set _ _ c (readChar_solid t c solid), if_pos (ends rfl), unread_solid t c solid]
  | succ n =>
    rw [readWord_of_char set _ _ ' ' (readChar_blanks t c n solid), if_pos ordinary.blank, oneBlank_succ]
    rfl

theorem readToken_word (eofAllowed : Bool) (w : Text) (n : Nat) (spelled : w ≠ []) (word : ∀ d ∈ w, Bare d)
    (solid : opensGap c = false) (ends : n = 0 → set.contains c = true) :
    readToken set eofAllowed (ofSource (w ++ (blanks n ++ c :: t))) =
      .ok ⟨.word, w, 1, none⟩ (ofSource (oneBlank n ++ c :: t)) := by
  rw [readToken_append _ set eofAllowed w spelled word fun d hd => ordinary.bare d (word d hd),
    readWord_stop t c ordinary n solid ends]
  simp

theorem readToken_blanks (eofAllowed : Bool) (n : Nat) (solid : opensGap c = false) :
    readToken set eofAllowed (ofSource (blanks (n + 1) ++ c :: t)) = .ok blank (ofSource (c :: t)) :=
  readToken_of_special set eofAllowed _ ' ' _ rfl (readFirst_blanks t c n solid) (by decide) rfl ordinary.blank

end

theorem readRawValue_blanks (n : Nat) (solid : opensGap c = false) :
    readRawValue (ofSource (blanks n ++ c :: t)) =
      (blankTokens n ++ (readRawValue (ofSource (c :: t))).1, (readRawValue (ofSource (c :: t))).2) := by
  cases n with
  | zero => rfl
  | succ n =>
    rw [readRawValue_of_token _ _ _ (readToken_blanks t c (.inr rfl) false n solid), blankTokens_succ]
    rfl

/-- Behind a word at most one blank is left, behind a string or a reference all of them. -/
theorem readToken_atom (a : Atom) (n : Nat) (solid : opensGap c = false)
    (ends : n = 0 → Specials.value.contains c = true) :
    ∃ m, min m 1 = min n 1 ∧
      readToken .value false (ofSource (a.render ++ (blanks n ++ c :: t))) =
        .ok a.token (ofSource (blanks m ++ c :: t)) := by
  cases a with
  | word text chars spelled =>
    have word : ∀ d ∈ text, Bare d := fun d hd => bare_of_isWordChar d (List.all_eq_true.mp chars d hd)
    exact ⟨min n 1, by simp, readToken_word t c (.inr rfl) false text n spelled word solid ends⟩
  | string text chars =>
    refine ⟨n, rfl, ?_⟩
    have token := readToken_string (blanks n ++ c :: t) .value false text (List.all_eq_true.mp chars)
    simpa [Atom.render, Atom.token] using token
  | reference k => exact ⟨n, rfl, readToken_digit (blanks n ++ c :: t) .value false k⟩

theorem readRawValue_atom (a : Atom) (n : Nat) (solid : opensGap c = false)
    (ends : n = 0 → Specials.value.contains c = true) :
    readRawValue (ofSource (a.render ++ (blanks n ++ c :: t))) =
      (a.token :: (blankTokens n ++ (readRawValue (ofSource (c :: t))).1), (readRawValue (ofSource (c :: t))).2) := by
  obtain ⟨m, same, token⟩ := readToken_atom t c a n solid ends
  have plain (chars : Text) : a.token.isSpecial chars = false := by cases a <;> rfl
  rw [readRawValue_of_token _ _ _ token, plain, plain, plain, readRawValue_blanks t c m solid, ← blankTokens_min m,
    same, blankTokens_min n]
  rfl

end Scanner

namespace Grammar

open Scanner

theorem Atom.render_cons (a : Atom) : ∃ c cs, a.render = c :: cs ∧ opensGap c = false ∧ c ∉ signs := by
  cases a with
  | word text chars spelled =>
    obtain ⟨c, cs, rfl⟩ := List.exists_cons_of_ne_nil spelled
    have bare := bare_of_isWordChar c (List.all_eq_true.mp chars c List.mem_cons_self)
    exact ⟨c, cs, rfl, bare.solid, bare.not_mem_signs⟩
  | string text chars => exact ⟨'"', text ++ ['"'], rfl, by decide, by decide⟩
  | reference k => exact ⟨'$', [Nat.digitChar k], rfl, by decide, by decide⟩

theorem Value.render_cons (v : Value) : ∃ c cs, v.render = c :: cs ∧ opensGap c = false ∧ c ∉ signs := by
  obtain ⟨c, cs, start, solid, sign⟩ := v.first.render_cons
  exact ⟨c, _, by rw [Value.render, start]; rfl, solid, sign⟩

variable (t : Text)

theorem readRawValue_value (v : Value) (n : Nat) :
    readRawValue (ofSource (v.render ++ (blanks n ++ ';' :: t))) =
      (v.tokens ++ blankTokens n, .ok () (ofSource t)) := by
  obtain ⟨first, others⟩ := v
  induction others generalizing first with
  | nil =>
    have stop : readRawValue (ofSource (';' :: t)) = ([], .ok () (ofSource t)) := by
      rw [readRawValue_of_token _ _ _ (readToken_sign t ';' (.inr rfl) false (by decide))]
      rfl
    have read := readRawValue_atom t ';' first n (by decide) (fun _ => by decide)
    rw [stop] at read
    simpa [Value.render, Value.tokens] using read
  | cons next others ih =>
    -- the next part goes first in the rest of the value
    obtain ⟨c, cs, start, solid, -⟩ := next.render_cons
    have rest := ih next
    simp only [Value.render, Value.tokens, start, List.cons_append, List.append_assoc] at rest
    have read := readRawValue_atom (cs ++ (others.flatMap (fun a => ' ' :: a.render) ++ (blanks n ++ ';' :: t))) c
      first 1 solid (by simp)
    rw [rest] at read
    simpa [Value.render, Value.tokens, start, blankTokens, blanks] using read

theorem readRawValue_blanks_value (v : Value) (m n : Nat) :
    readRawValue (ofSource (blanks m ++ (v.render ++ (blanks n ++ ';' :: t)))) =
      (blankTokens m ++ (v.tokens ++ blankTokens n), .ok () (ofSource t)) := by
  obtain ⟨c, cs, start, solid, -⟩ := v.render_cons
  have value := readRawValue_value t v n
  rw [start, List.cons_append] at value ⊢
  rw [readRawValue_blanks _ c m solid, value]

@[simp] theorem Atom.token_isBlank (a : Atom) : a.token.isBlank = false := by
  cases a <;> rfl

theorem blank_isBlank : blank.isBlank = true := rfl

theorem Value.tokens_eq_append (v : Value) : ∃ front a, v.tokens = front ++ [Atom.token a] := by
  obtain ⟨first, others⟩ := v
  rcases List.eq_nil_or_concat others with rfl | ⟨others, last, rfl⟩
  · exact ⟨[], first, rfl⟩
  · exact ⟨first.token :: (others.flatMap fun a => [blank, a.token]) ++ [blank], last, by simp [Value.tokens]⟩

theorem dropTrailingBlanks_tokens (v : Value) (n : Nat) :
    dropTrailingBlanks (v.tokens ++ blankTokens n) = v.tokens := by
  obtain ⟨front, a, last⟩ := v.tokens_eq_append
  have gone : ∀ b ∈ (blankTokens n).reverse, b.isBlank = true := by
    intro b hb
    simp only [blankTokens, List.mem_reverse, List.mem_replicate] at hb
    rw [hb.2, blank_isBlank]
  rw [dropTrailingBlanks, List.reverse_append, List.dropWhile_append_of_pos gone, last]
  simp

theorem readLazyValue_value (v : Value) (n : Nat) :
    readLazyValue (ofSource (v.render ++ (blanks n ++ ';' :: t))) = .ok v.tokens (ofSource t) := by
  have start : (v.tokens ++ blankTokens n).dropWhile Token.isBlank = v.tokens ++ blankTokens n := by
    simp [Value.tokens]
  simp only [readLazyValue, readRawValue_value, start, dropTrailingBlanks_tokens]

section

variable (p : Protocol) (front : List Token)

theorem settleAfter_atom (a : Atom) (ts : List Token) :
    p.settleAfter front (a.token :: ts) = p.settleAfter (front ++ [a.token]) ts := by
  cases a with
  | word text chars spelled => rfl
  | string text chars => rfl
  | reference k =>
    have table : ∀ k : Fin 10, isDigit (Nat.digitChar k) = true ∧ decimalValue? (Nat.digitChar k) = some k.val := by
      decide
    have index : p.parameterIndex [Nat.digitChar k] = .ok (some k.val) := by
      simp [Protocol.parameterIndex, table k]
    simp only [Atom.token, Protocol.settleAfter, if_true, index]
    rfl

theorem settleAfter_blank (ts : List Token) :
    p.settleAfter front (blank :: ts) = p.settleAfter (if front.isEmpty then front else front ++ [blank]) ts := by
  cases front <;> rfl

theorem settleAfter_blankTokens (n : Nat) (started : front ≠ []) :
    p.settleAfter front (blankTokens n) = pure (front ++ blankTokens n) := by
  cases n with
  | zero => simp [blankTokens, Protocol.settleAfter]
  | succ n => simp [blankTokens_succ, settleAfter_blank, started, Protocol.settleAfter]

theorem settleAfter_others (others : List Atom) (n : Nat) (started : front ≠ []) :
    p.settleAfter front ((others.flatMap fun a => [blank, a.token]) ++ blankTokens n) =
      pure (front ++ ((others.flatMap fun a => [blank, a.token]) ++ blankTokens n)) := by
  induction others generalizing front with
  | nil => exact settleAfter_blankTokens p front n started
  | cons a others ih =>
    simp only [List.flatMap_cons, List.cons_append, List.nil_append]
    rw [settleAfter_blank, settleAfter_atom, if_neg (by simpa using started), ih _ (by simp)]
    simp

theorem settle_value (v : Value) (m n : Nat) :
    p.settle (blankTokens m ++ (v.tokens ++ blankTokens n)) = pure v.tokens := by
  have skip (ts : List Token) : p.settleAfter [] (blankTokens m ++ ts) = p.settleAfter [] ts := by
    cases m with
    | zero => rfl
    | succ m => simp [blankTokens_succ, settleAfter_blank]
  have tokens : p.settleAfter [] (v.tokens ++ blankTokens n) = pure (v.tokens ++ blankTokens n) := by
    rw [Value.tokens, List.cons_append, settleAfter_atom, settleAfter_others p _ _ _ (by simp)]
    rfl
  rw [Protocol.settle, skip, tokens]
  show pure (dropTrailingBlanks (v.tokens ++ blankTokens n)) = _
  rw [dropTrailingBlanks_tokens]

theorem settled?_value (name : Text) (v : Value) (m n : Nat) :
    p.settled? name 1 (blankTokens m ++ (v.tokens ++ blankTokens n)) = some (p.assign name 1 v.tokens) := by
  have untouched : Protocol.touchBy [] = id := by
    funext b
    simp [Protocol.touchBy]
  simp [Protocol.settled?, settle_value, Protocol.touch, untouched]

end

structure Named (name : Text) : Prop where
  bare : ∀ c ∈ name, Bare c
  starts : startsStatement name = true

theorem Name.bare {first : Char → Bool} (i : Name first) : ∀ c ∈ i.text, Bare c := fun c hc =>
  bare_of_isWordChar c (List.all_eq_true.mp i.chars c hc)

theorem Name.text_cons {first : Char → Bool} (i : Name first) : ∃ c cs, i.text = c :: cs ∧ first c = true := by
  obtain ⟨text, chars, starts⟩ := i
  cases text with
  | nil => cases starts
  | cons c cs => exact ⟨c, cs, rfl, starts⟩

theorem isLetter_of_isSmallLetter (c : Char) (h : isSmallLetter c = true) : isLetter c = true := by
  have ascii := ascii_of_isNameChar c (by simp [isNameChar, isWordChar, h])
  exact forall_ascii (fun c => isSmallLetter c = true → isLetter c = true) (by decide +kernel) c ascii h

theorem Identifier.named (i : Identifier) : Named i.text := by
  obtain ⟨c, cs, start, small⟩ := i.text_cons
  refine ⟨i.bare, ?_⟩
  simp [startsStatement, start, isLetter_of_isSmallLetter c small]

theorem Identifier.not_handler (i : Identifier) : isHandlerName i.text = false := by
  obtain ⟨c, cs, start, small⟩ := i.text_cons
  have letter : c ≠ '@' := by
    rintro rfl
    cases small
  simp [isHandlerName, start, letter]

theorem HandlerName.named (i : HandlerName) : Named ('@' :: i.text) := by
  refine ⟨?_, rfl⟩
  rw [List.forall_mem_cons]
  exact ⟨bare_of_isNameChar '@' (by decide), i.bare⟩

theorem lower_of_bare (name : Text) (bare : ∀ c ∈ name, Bare c) : Text.lower name = name := by
  have small (before : Text) : Text.lowerAfter before name = name := by
    induction name generalizing before with
    | nil => rfl
    | cons c cs ih =>
      rw [List.forall_mem_cons] at bare
      have sigma : c.toNat ≠ 0x3A3 := by
        intro capital
        have small := bare.1.small
        rw [← c.ofNat_toNat, capital] at small
        revert small
        decide +kernel
      rw [Text.lowerAfter, if_neg sigma, bare.1.small, ih bare.2]
      rfl
  exact small []

theorem readHead_blanks (eofAllowed : Bool) (n : Nat) :
    readHead eofAllowed (ofSource (blanks n ++ t)) = readHead eofAllowed (ofSource t) := by
  rw [← readHead_afterGap eofAllowed (ofSource (blanks n ++ t)) rfl, afterGap_blanks,
    readHead_afterGap eofAllowed (ofSource t) rfl]

theorem readHead_name (eofAllowed : Bool) (name : Text) (c : Char) (n : Nat) (named : Named name)
    (solid : opensGap c = false) (ends : n = 0 → Specials.structural.contains c = true) :
    readHead eofAllowed (ofSource (name ++ (blanks n ++ c :: t))) = .ok (.named name 1 (some c)) (ofSource t) := by
  have spelled : name ≠ [] := by
    rintro rfl
    cases named.starts
  have token := readToken_word t c (.inl rfl) eofAllowed name n spelled named.bare solid ends
  rw [readHead_of_token _ _ _ _ token, oneBlank, readNonblank_blanks t c _ solid]
  simp [Token.isSpecial, named.starts]

theorem readHead_close (eofAllowed : Bool) :
    readHead eofAllowed (ofSource ('\x7d' :: t)) = .ok .close (ofSource t) := by
  rw [readHead_of_token _ _ _ _ (readToken_sign t '\x7d' (.inl rfl) eofAllowed (by decide))]
  rfl

theorem readHead_end : readHead true (ofSource []) = .ok .endOfFile (ofSource []) := by
  have token : readToken .structural true (ofSource []) = .ok ⟨.eof, [], 1, none⟩ (ofSource []) := by
    rw [readToken]
    rfl
  rw [readHead_of_token _ _ _ _ token]
  rfl

section

variable (protocol : Text) (names : List Text) (c : Char)

theorem readParameters_blanks (n : Nat) (solid : opensGap c = false) :
    readParameters protocol names (ofSource (blanks n ++ c :: t)) =
      readParameters protocol names (ofSource (c :: t)) := by
  cases n with
  | zero => rfl
  | succ n =>
    rw [readParameters_of_token _ _ _ _ _ (readToken_blanks t c (.inl rfl) false n solid)]
    rfl

theorem readParameters_comma :
    readParameters protocol names (ofSource (',' :: t)) = readParameters protocol names (ofSource t) := by
  rw [readParameters_of_token _ _ _ _ _ (readToken_sign t ',' (.inl rfl) false (by decide))]
  rfl

theorem readParameters_name (i : ParameterName) (n : Nat) (new : i.text ∉ names) (solid : opensGap c = false)
    (ends : n = 0 → Specials.structural.contains c = true) :
    readParameters protocol names (ofSource (i.text ++ (blanks n ++ c :: t))) =
      readParameters protocol (names ++ [i.text]) (ofSource (blanks n ++ c :: t)) := by
  obtain ⟨d, ds, start, starts⟩ := i.text_cons
  have token := readToken_word t c (.inl rfl) false i.text n (by simp [start]) i.bare solid ends
  have letter : (i.text.head?.any fun c => isLetter c || c == '_') = true := by
    simp only [Bool.or_eq_true] at starts
    simpa [start] using starts.imp_left (isLetter_of_isSmallLetter d)
  rw [readParameters_of_token _ _ _ _ _ token, readParameters_blanks t protocol (names ++ [i.text]) c n solid,
    ← readParameters_blanks t protocol (names ++ [i.text]) c (min n 1) solid]
  simp [Token.isSpecial, Token.isBlank, letter, new, oneBlank]

theorem readParameters_close (few : names.length ≤ maxParameters) :
    readParameters protocol names (ofSource (')' :: t)) = .ok names (ofSource t) := by
  have token := readToken_sign t ')' (.inl rfl) false (by decide)
  rw [readParameters_of_token _ _ _ _ _ token, if_pos (by rfl), if_neg (by omega)]

end

def Layout.otherParameters (l : Layout) (others : List ParameterName) (t : Text) : Text :=
  (others.flatMap fun p => l.sign ',' ++ p.text) ++ (blanks l.around ++ ')' :: t)

theorem Layout.otherParameters_eq (l : Layout) (others : List ParameterName) :
    ∃ c u, l.otherParameters others t = blanks l.around ++ c :: u ∧ opensGap c = false ∧
      Specials.structural.contains c = true := by
  cases others with
  | nil => exact ⟨')', t, rfl, by decide, by decide⟩
  | cons p others =>
    refine ⟨',', blanks l.around ++ (p.text ++ l.otherParameters others t), ?_, by decide, by decide⟩
    simp [otherParameters, sign]

theorem readParameters_next (l : Layout) (protocol : Text) (names : List Text) (i : ParameterName)
    (others : List ParameterName) (new : i.text ∉ names) :
    readParameters protocol names (ofSource (blanks l.around ++ (i.text ++ l.otherParameters others t))) =
      readParameters protocol (names ++ [i.text]) (ofSource (l.otherParameters others t)) := by
  obtain ⟨c, u, behind, solid, special⟩ := l.otherParameters_eq t others
  obtain ⟨d, ds, start, -⟩ := i.text_cons
  have bare := i.bare d (by simp [start])
  calc readParameters protocol names (ofSource (blanks l.around ++ (i.text ++ l.otherParameters others t)))
    _ = readParameters protocol names (ofSource (i.text ++ l.otherParameters others t)) := by
      rw [start]
      exact readParameters_blanks _ protocol names d l.around bare.solid
    _ = readParameters protocol (names ++ [i.text]) (ofSource (l.otherParameters others t)) := by
      rw [behind]
      exact readParameters_name u protocol names c i l.around new solid (fun _ => special)

theorem readParameters_others (l : Layout) (protocol : Text) (names : List Text) (others : List ParameterName)
    (distinct : (names ++ others.map Name.text).Nodup)
    (few : (names ++ others.map Name.text).length ≤ maxParameters) :
    readParameters protocol names (ofSource (l.otherParameters others t)) =
      .ok (names ++ others.map Name.text) (ofSource t) := by
  induction others generalizing names with
  | nil =>
    simp only [List.map_nil, List.append_nil] at few ⊢
    exact (readParameters_blanks t protocol names ')' l.around (by decide)).trans
      (readParameters_close t protocol names few)
  | cons i others ih =>
    have new : i.text ∉ names := fun known => (List.nodup_append.mp distinct).2.2 i.text known i.text (by simp) rfl
    -- commas count as blanks here
    have text : l.otherParameters (i :: others) t =
        blanks l.around ++ ',' :: (blanks l.around ++ (i.text ++ l.otherParameters others t)) := by
      simp [Layout.otherParameters, Layout.sign]
    have shift : names ++ (i :: others).map Name.text = (names ++ [i.text]) ++ others.map Name.text := by
      simp
    rw [shift] at distinct few ⊢
    rw [text, readParameters_blanks _ protocol names ',' l.around (by decide), readParameters_comma,
      readParameters_next t l protocol names i others new]
    exact ih _ distinct few

theorem readHead_definition (l : Layout) (d : Definition) :
    ∃ after s,
      readHead true (ofSource (d.name.text ++ (l.parameters d.parameters ++ (blanks l.around ++ '\x7b' :: t)))) =
        .ok (.named d.name.text 1 after) s ∧
      (after = some '\x7b' ∨ after = some '(') ∧
      ProtocolFile.readOpening d.name.text after s = .ok (d.parameters.map Name.text) (ofSource t) := by
  obtain ⟨name, parameters, body, few, distinct⟩ := d
  cases parameters with
  | nil =>
    have head := readHead_name t true name.text '\x7b' l.around name.named (by decide) (fun _ => by decide)
    exact ⟨some '\x7b', ofSource t, head, .inl rfl, rfl⟩
  | cons first others =>
    have text : l.parameters (first :: others) ++ (blanks l.around ++ '\x7b' :: t) =
        blanks l.around ++ '(' ::
          (blanks l.around ++ (first.text ++ l.otherParameters others (blanks l.around ++ '\x7b' :: t))) := by
      simp [Layout.parameters, Layout.otherParameters, Layout.sign]
    have head := readHead_name (blanks l.around ++ (first.text ++
      l.otherParameters others (blanks l.around ++ '\x7b' :: t))) true name.text '(' l.around name.named (by decide)
      (fun _ => by decide)
    rw [← text] at head
    refine ⟨some '(', _, head, .inr rfl, ?_⟩
    have names := (readParameters_next (blanks l.around ++ '\x7b' :: t) l name.text [] first others (by simp)).trans
      (readParameters_others _ l name.text [first.text] others distinct (by simpa using few))
    rw [ProtocolFile.readOpening, if_pos rfl, readSignature, names]
    simp only [readNonblank_blanks t '\x7b' l.around (by decide)]
    rfl

def Command.written (c : Command) : WrittenCommand := ⟨c.name.text, 1, false, c.value.tokens, 1⟩

theorem commandAt (l : Layout) (c : Command) :
    CommandAt (ofSource (blanks l.between ++ (l.command c ++ t))) c.written (ofSource t) := by
  -- the character behind the name is the first one of the value, and it is put back
  obtain ⟨d, ds, start, solid, sign⟩ := c.value.render_cons
  have text : l.command c ++ t = c.name.text ++ (blanks 1 ++ (c.value.render ++ (blanks l.before ++ ';' :: t))) := by
    simp [Layout.command, blanks]
  have head : readHead false (ofSource (blanks l.between ++ (l.command c ++ t))) =
      .ok (.named c.name.text 1 (some d)) (ofSource (ds ++ (blanks l.before ++ ';' :: t))) := by
    rw [readHead_blanks, text, start, List.cons_append]
    exact readHead_name _ false c.name.text d 1 c.name.named solid (by simp)
  have value : ((ofSource (ds ++ (blanks l.before ++ ';' :: t))).unread? (some d)).readLazyValue =
      .ok c.value.tokens (ofSource t) := by
    rw [← readLazyValue_value t c.value l.before, start, List.cons_append, unread?, unread_solid _ d solid]
  simp only [signs, List.mem_cons, List.not_mem_nil, or_false, not_or] at sign
  have more : endsCommand (some d) = false := by
    simp [endsCommand, sign]
  have command := CommandAt.intro _ _ _ _ _ _ _ head (by simp [sign]) (by simp [sign]) c.name.not_handler value
  rwa [more] at command

theorem block_append {α : Type} (l : Layout) (render : α → Text) (xs : List α) :
    l.block render xs ++ t =
      blanks l.around ++ '\x7b' :: (l.statements render xs ++ (blanks l.around ++ '\x7d' :: t)) := by
  simp [Layout.block]

theorem statements_cons {α : Type} (l : Layout) (render : α → Text) (x : α) (xs : List α) :
    l.statements render (x :: xs) ++ t = blanks l.between ++ (render x ++ (l.statements render xs ++ t)) := by
  simp [Layout.statements]

theorem handlerAt (l : Layout) (commands : List Command) :
    HandlerAt (ofSource (l.statements l.command commands ++ (blanks l.around ++ '\x7d' :: t)))
      (commands.map Command.written) (ofSource t) := by
  induction commands with
  | nil => exact .close _ _ ((readHead_blanks _ false l.around).trans (readHead_close t false))
  | cons c commands ih =>
    rw [statements_cons]
    exact .command _ _ _ _ _ (commandAt _ l c) ih

def Item.written (l : Layout) : Item → BodyItem
  | assignment name value => .assignment name.text 1 (blankTokens l.around ++ (value.tokens ++ blankTokens l.before))
  | handler name commands => .handler ('@' :: name.text) 1 (commands.map Command.written)
  | command c => .command c.written

theorem readHead_assignment (l : Layout) (eofAllowed : Bool) (name : Identifier) (v : Value) :
    readHead eofAllowed (ofSource (blanks l.between ++ (l.assignment name v ++ t))) =
      .ok (.named name.text 1 (some '='))
        (ofSource (blanks l.around ++ (v.render ++ (blanks l.before ++ ';' :: t)))) := by
  have text : l.assignment name v ++ t =
      name.text ++ (blanks l.around ++ '=' :: (blanks l.around ++ (v.render ++ (blanks l.before ++ ';' :: t)))) := by
    simp [Layout.assignment, Layout.sign]
  rw [readHead_blanks, text]
  exact readHead_name _ eofAllowed name.text '=' l.around name.named (by decide) (fun _ => by decide)

theorem readHead_handler (l : Layout) (eofAllowed : Bool) (name : HandlerName) (commands : List Command) :
    readHead eofAllowed (ofSource (blanks l.between ++ (l.handler name commands ++ t))) =
      .ok (.named ('@' :: name.text) 1 (some '\x7b'))
        (ofSource (l.statements l.command commands ++ (blanks l.around ++ '\x7d' :: t))) := by
  rw [readHead_blanks, Layout.handler, List.append_assoc, block_append]
  exact readHead_name _ eofAllowed _ '\x7b' l.around (HandlerName.named name) (by decide) (fun _ => by decide)

theorem bodyAt (l : Layout) (items : List Item) :
    BodyAt (ofSource (l.statements l.item items ++ (blanks l.around ++ '\x7d' :: t))) (items.map (Item.written l))
      (ofSource t) := by
  induction items with
  | nil => exact .close _ _ ((readHead_blanks _ false l.around).trans (readHead_close t false))
  | cons item items ih =>
    rw [statements_cons]
    cases item with
    | assignment name value =>
      exact .assignment _ _ _ _ _ _ _ _ (readHead_assignment _ l false name value) name.not_handler
        (readRawValue_blanks_value _ value l.around l.before) ih
    | handler name commands =>
      exact .handler _ _ _ _ _ _ _ _ (readHead_handler _ l false name commands) rfl (handlerAt _ l commands) ih
    | command c => exact .command _ _ _ _ _ (commandAt _ l c) ih

def Entry.written (l : Layout) : Entry → Statement
  | assignment name value => .assignment name.text 1 (blankTokens l.around ++ (value.tokens ++ blankTokens l.before))
  | handler name commands => .handler ('@' :: name.text) 1 (commands.map Command.written)
  | definition d => .definition d.name.text 1 (d.parameters.map Name.text) (d.body.map (Item.written l))

theorem statementsAt (l : Layout) (entries : List Entry) :
    StatementsAt (ofSource (l.statements l.entry entries)) (entries.map (Entry.written l)) := by
  induction entries with
  | nil => exact .done _ _ readHead_end
  | cons entry entries ih =>
    rw [← List.append_nil (l.statements _ _), statements_cons, List.append_nil]
    cases entry with
    | assignment name value =>
      exact .assignment _ _ _ _ _ _ _ (readHead_assignment _ l true name value) name.not_handler
        (readRawValue_blanks_value _ value l.around l.before) ih
    | handler name commands =>
      exact .handler _ _ _ _ _ _ _ (readHead_handler _ l true name commands) rfl (handlerAt _ l commands) ih
    | definition d =>
      obtain ⟨after, s, head, opens, opening⟩ := readHead_definition
        (l.statements l.item d.body ++ (blanks l.around ++ '\x7d' :: l.statements l.entry entries)) l d
      refine .definition _ s _ _ _ _ after _ _ _ ?_ d.name.not_handler opens opening (bodyAt _ l d.body) ih
      rw [readHead_blanks, Layout.entry, List.append_assoc, List.append_assoc, block_append]
      exact head

def declared (assigned : List Assigned) (name : Text) : List Binding :=
  if name ∈ assigned.map Prod.fst then bindings assigned else bindings assigned ++ [{ name := name, line := 1 }]

theorem bindings_append (assigned : List Assigned) (name : Text) (value : List Token) :
    bindings (assigned ++ [(name, value)]) =
      (declared assigned name).map fun b => if b.name = name then { b with value := value } else b := by
  have last (n : Text) : ((assigned ++ [(name, value)]).reverse.lookup n).getD [] =
      if n = name then value else (assigned.reverse.lookup n).getD [] := by
    by_cases same : n = name
    · simp [same]
    · simp [List.lookup_cons, same, beq_eq_false_iff_ne.mpr same]
  have value_eq (n : Text) :
      ({ name := n, value := if n = name then value else (assigned.reverse.lookup n).getD [], line := 1 } : Binding) =
        if n = name then { name := n, value := value, line := 1 }
        else { name := n, value := (assigned.reverse.lookup n).getD [], line := 1 } := by
    split <;> rfl
  simp only [bindings, declared, last, List.map_append, List.eraseDups_append, List.map_cons, List.map_nil, value_eq]
  split
  · next known => simp [List.removeAll, known, Function.comp_def]
  · next new => simp [List.removeAll, new, List.eraseDups_cons, Function.comp_def]

theorem assign_bindings (p : Protocol) (assigned : List Assigned) (name : Text) (value : List Token)
    (hp : p.bindings = bindings assigned) (small : Text.lower name = name) :
    p.assign name 1 value = { p with bindings := bindings (assigned ++ [(name, value)]) } := by
  have known : (p.bindings.any fun b => b.name == name) = true ↔ name ∈ assigned.map Prod.fst := by
    simp [hp, bindings]
  have placed : (p.bindings.map fun b => if b.name = name then { b with line := 1 } else b) = bindings assigned := by
    simp [hp, bindings]
  have declare : p.declare name 1 = { p with bindings := declared assigned name } := by
    simp only [Protocol.declare, declared, small]
    by_cases bound : name ∈ assigned.map Prod.fst
    · rw [if_pos (known.mpr bound), if_pos bound, placed]
    · rw [if_neg (mt known.mp bound), if_neg bound, hp]
  rw [Protocol.assign, declare, small, bindings_append]

section

variable (earlier : List Protocol) (p : Protocol) (assigned : List Assigned)

theorem tokens_written (c : Command) : c.written.tokens earlier = c.tokens := rfl

theorem flatMap_tokens_written (commands : List Command) :
    (commands.map Command.written).flatMap (WrittenCommand.tokens earlier) = commands.flatMap Command.tokens := by
  rw [List.flatMap_map]
  rfl

/-- The protocol after more assignments and commands. -/
def extended (defs : List Assigned) (commands : List Token) : Protocol :=
  { p with
    bindings := bindings (assigned ++ defs)
    commands := { p.commands with value := p.commands.value ++ commands } }

theorem extend?_item (l : Layout) (item : Item) (hp : p.bindings = bindings assigned) :
    p.extend? earlier (item.written l) = some (extended p assigned item.assigned item.commandTokens) := by
  cases item with
  | assignment name value =>
    rw [Item.written, Protocol.extend?, settled?_value, assign_bindings p assigned _ _ hp (lower_of_bare _ name.bare)]
    simp [extended, Item.assigned, Item.commandTokens]
  | handler name commands =>
    rw [Item.written, Protocol.extend?, flatMap_tokens_written,
      assign_bindings p assigned _ _ hp (lower_of_bare _ name.named.bare)]
    simp [extended, Item.assigned, Item.commandTokens]
  | command c =>
    rw [Item.written, Protocol.extend?, tokens_written, Protocol.addCommands]
    simp [extended, Item.assigned, Item.commandTokens, hp]

theorem build?_items (l : Layout) (items : List Item) (hp : p.bindings = bindings assigned) :
    p.build? earlier (items.map (Item.written l)) =
      some (extended p assigned (items.flatMap Item.assigned) (items.flatMap Item.commandTokens)) := by
  induction items generalizing p assigned with
  | nil => simp [Protocol.build?, extended, ← hp]
  | cons item items ih =>
    rw [List.map_cons, Protocol.build?, List.foldlM_cons, extend?_item earlier p assigned l item hp]
    exact (ih _ (assigned ++ item.assigned) rfl).trans (by simp [extended])

end

def readSoFar (file : Option Text) (before : List Assigned) (ps : List Protocol) : ProtocolFile where
  file := file
  globals := { file := file, bindings := bindings before }
  protocols := ps

/-- Every entry adds its assignments to those before it, or one protocol that starts with them. -/
theorem build?_entries (l : Layout) (file : Option Text) (before : List Assigned) (ps : List Protocol)
    (entries : List Entry) (distinct : (ps.map Protocol.name ++ entries.filterMap Entry.protocolName?).Nodup) :
    (readSoFar file before ps).build? (entries.map (Entry.written l)) =
      some (readSoFar file (before ++ entries.flatMap Entry.assigned) (ps ++ protocols file before entries)) := by
  induction entries generalizing before ps with
  | nil => simp [ProtocolFile.build?, protocols]
  | cons entry entries ih =>
    rw [List.map_cons, ProtocolFile.build?, List.foldlM_cons]
    cases entry with
    | assignment name value =>
      have step : (readSoFar file before ps).extend? (Entry.written l (.assignment name value)) =
          some (readSoFar file (before ++ [(name.text, value.tokens)]) ps) := by
        rw [Entry.written, ProtocolFile.extend?, settled?_value,
          assign_bindings _ before _ _ rfl (lower_of_bare _ name.bare)]
        rfl
      rw [step]
      exact (ih _ ps distinct).trans (by simp [Entry.assigned, protocols])
    | handler name commands =>
      have step : (readSoFar file before ps).extend? (Entry.written l (.handler name commands)) =
          some (readSoFar file (before ++ [('@' :: name.text, commands.flatMap Command.tokens)]) ps) := by
        rw [Entry.written, ProtocolFile.extend?, flatMap_tokens_written,
          assign_bindings _ before _ _ rfl (lower_of_bare _ name.named.bare)]
        rfl
      rw [step]
      exact (ih _ ps distinct).trans (by simp [Entry.assigned, protocols])
    | definition d =>
      have fresh : ∀ q ∈ ps, q.name ≠ d.name.text := fun q hq =>
        (List.nodup_append.mp distinct).2.2 q.name (List.mem_map_of_mem hq) d.name.text (by simp [Entry.protocolName?])
      have step : (readSoFar file before ps).extend? (Entry.written l (.definition d)) =
          some (readSoFar file before (ps ++ [d.protocol file before])) := by
        refine (ProtocolFile.extend?_definition _ _ _ _ _ _).mpr ⟨fresh, _, build?_items _ _ before l d.body rfl, rfl⟩
      have rest :
          ((ps ++ [d.protocol file before]).map Protocol.name ++ entries.filterMap Entry.protocolName?).Nodup := by
        simpa [Entry.protocolName?, Definition.protocol] using distinct
      rw [step]
      exact (ih before _ rest).trans (by simp [Entry.assigned, protocols])

end Grammar

namespace ProtocolFile

def single (c : Grammar.Command) : Text :=
  "p \x7b ".toList ++ c.name.text ++ ' ' :: c.value.render ++ "; \x7d".toList

open Scanner Grammar in
theorem ofSource_single (c : Grammar.Command) (file : Option Text) :
    ∃ f p, ofSource (single c) file = .ok f ∧ f.instantiate ['p'] = .ok p ∧ p.bindings = [] ∧ p.name = ['p'] ∧
      p.file = file ∧ p.commands.line = 1 ∧ p.commands.value = c.tokens := by
  let d : Definition := ⟨⟨['p'], by decide, by decide⟩, [], [.command c], by decide, by decide⟩
  let l : Layout := ⟨1, 0, 1⟩
  -- behind the name, the text is the body of a definition in this layout
  have text : single c = ['p'] ++ (blanks 1 ++ '\x7b' :: (l.statements l.item d.body ++
      (blanks 1 ++ '\x7d' :: []))) := by
    unfold single
    simp [l, d, Layout.statements, Layout.item, Layout.command, blanks]
  have written : StatementsAt (.ofSource (single c)) [Entry.written l (.definition d)] := by
    rw [text]
    refine .definition _ _ _ _ _ 1 (some '\x7b') [] _ [] ?_ d.name.not_handler (.inl rfl) rfl (bodyAt [] l d.body)
      (.done _ _ readHead_end)
    exact readHead_name _ true ['p'] '\x7b' 1 d.name.named (by decide) (by decide)
  have built := build?_entries l file [] [] [.definition d] (by simp [Entry.protocolName?])
  have hf := (ofSource_eq_ok_iff (single c) file _).mpr ⟨_, _, written, built, rfl⟩
  have commands : (d.protocol file []).commands.value = c.tokens := List.append_nil _
  exact ⟨_, (d.protocol file []).copy ['p'] 0 [], hf, rfl, rfl, rfl, rfl, rfl, commands⟩

/-- Every file of the grammar is read as what it holds, however many blanks there are where there may be any. -/
theorem ofSource_render (l : Grammar.Layout) (f : Grammar.File) (file : Option Text) :
    ofSource (l.file f) file = .ok (f.contents file) := by
  rw [ofSource_eq_ok_iff]
  exact ⟨_, _, Grammar.statementsAt l f.entries, Grammar.build?_entries l file [] [] f.entries f.distinct, rfl⟩

end ProtocolFile
end DeviceProtocol
