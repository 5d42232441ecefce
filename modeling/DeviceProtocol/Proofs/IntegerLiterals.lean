import Mathlib.Data.List.Induction
import Mathlib.Data.List.TakeWhile
import Mathlib.Data.Nat.Digits.Defs
import DeviceProtocol.Proofs.NumberReading
set_option autoImplicit false

namespace DeviceProtocol

/-- The value of a digit is its place among the sixteen there are, in small letters or in capitals. -/
def digitOf (c : Char) : Nat := "0123456789abcdef".toList.idxOf c.toLower

def positional (base : Nat) (ds : Text) : Nat := Nat.ofDigits base (ds.reverse.map digitOf)

theorem hexDigitValue_eq_digitOf (c : Char) (hex : isHexDigit c = true) : hexDigitValue c = digitOf c :=
  forall_ascii (fun c => isHexDigit c = true → hexDigitValue c = digitOf c) (by decide +kernel) c
    (ascii_of_isHexDigit c hex) hex

theorem digitsValue_eq_positional (base : Nat) (ds : Text) (hex : ∀ d ∈ ds, isHexDigit d = true) :
    digitsValue base ds = positional base ds := by
  -- the last digit is the one that is added to all the others
  induction ds using List.reverseRecOn with
  | nil => rfl
  | append_singleton ds d ih =>
    rw [List.forall_mem_append, List.forall_mem_singleton] at hex
    have step : digitsValue base (ds ++ [d]) = base * digitsValue base ds + hexDigitValue d := by simp [digitsValue]
    rw [step, ih hex.1, hexDigitValue_eq_digitOf d hex.2]
    simp [positional, Nat.ofDigits_cons, Nat.add_comm]

theorem isHexDigit_of_isDecimalDigit (c : Char) (h : isDecimalDigit c = true) : isHexDigit c = true := by
  simp [isHexDigit, h]

theorem isDecimalDigit_of_isOctalDigit (c : Char) (h : isOctalDigit c = true) : isDecimalDigit c = true := by
  simp only [isOctalDigit, isDecimalDigit, Bool.and_eq_true, decide_eq_true_eq] at h ⊢
  exact ⟨h.1, Char.le_trans h.2 (by decide)⟩

theorem length_le_takeWhile {α : Type} (P : α → Bool) (front rest : List α) (h : ∀ a ∈ front, P a = true) :
    front.length ≤ ((front ++ rest).takeWhile P).length := by
  rw [List.takeWhile_append_of_pos h, List.length_append]
  exact Nat.le_add_right _ _

namespace Text

inductive Magnitude : Text → Nat → Prop
  | hexadecimal (x : Char) (ds : Text) (mark : x = 'x' ∨ x = 'X') (some : ds ≠ [])
      (digits : ∀ d ∈ ds, isHexDigit d = true) : Magnitude ('0' :: x :: ds) (positional 16 ds)
  | octal (ds : Text) (digits : ∀ d ∈ ds, isOctalDigit d = true) : Magnitude ('0' :: ds) (positional 8 ds)
  | decimal (d : Char) (ds : Text) (nonzero : d ≠ '0') (digits : ∀ e ∈ d :: ds, isDecimalDigit e = true) :
      Magnitude (d :: ds) (positional 10 (d :: ds))

inductive Literal : Text → Int → Prop
  | unsigned {t : Text} {n : Nat} (h : Magnitude t n) : Literal t n
  | plus {t : Text} {n : Nat} (h : Magnitude t n) : Literal ('+' :: t) n
  | minus {t : Text} {n : Nat} (h : Magnitude t n) : Literal ('-' :: t) (-n)

theorem magnitude?_sound (s : Text) (n length : Nat) (h : magnitude? s = some (n, length)) :
    ∃ t rest, s = t ++ rest ∧ t.length = length ∧ Magnitude t n := by
  have octalCase (cs : Text) (h : some (octal cs) = some (n, length)) :
      ∃ t rest, '0' :: cs = t ++ rest ∧ t.length = length ∧ Magnitude t n := by
    cases h
    have digits : ∀ d ∈ cs.takeWhile isOctalDigit, isOctalDigit d = true := fun _ mem => List.mem_takeWhile_imp mem
    refine ⟨'0' :: cs.takeWhile isOctalDigit, cs.dropWhile isOctalDigit, ?_, rfl, ?_⟩
    · rw [List.cons_append, List.takeWhile_append_dropWhile]
    · rw [digitsValue_eq_positional 8 _ fun d mem =>
        isHexDigit_of_isDecimalDigit d (isDecimalDigit_of_isOctalDigit d (digits d mem))]
      exact .octal _ digits
  unfold magnitude? at h
  split at h
  · cases h
  · next cs =>
    split at h
    · next x ds =>
      dsimp only at h
      split at h
      · next hex =>
        cases h
        simp only [Bool.and_eq_true, Bool.or_eq_true, beq_iff_eq, Bool.not_eq_true', List.isEmpty_eq_false_iff] at hex
        have digits : ∀ d ∈ ds.takeWhile isHexDigit, isHexDigit d = true := fun _ mem => List.mem_takeWhile_imp mem
        refine ⟨'0' :: x :: ds.takeWhile isHexDigit, ds.dropWhile isHexDigit, ?_, rfl, ?_⟩
        · rw [List.cons_append, List.cons_append, List.takeWhile_append_dropWhile]
        · rw [digitsValue_eq_positional 16 _ digits]
          exact .hexadecimal x _ hex.1 hex.2 digits
      · exact octalCase _ h
    · exact octalCase _ h
  · next c cs zero =>
    split at h
    · next digit =>
      cases h
      have digits : ∀ e ∈ c :: cs.takeWhile isDecimalDigit, isDecimalDigit e = true :=
        List.forall_mem_cons.mpr ⟨digit, fun _ mem => List.mem_takeWhile_imp mem⟩
      refine ⟨c :: cs.takeWhile isDecimalDigit, cs.dropWhile isDecimalDigit, ?_, rfl, ?_⟩
      · rw [List.cons_append, List.takeWhile_append_dropWhile]
      · rw [digitsValue_eq_positional 10 _ fun d mem => isHexDigit_of_isDecimalDigit d (digits d mem)]
        refine .decimal c _ ?_ digits
        rintro rfl
        exact zero rfl
    · cases h

theorem not_isOctalDigit_mark (x : Char) (mark : x = 'x' ∨ x = 'X') : isOctalDigit x = false := by
  -- a zero with a mark behind it starts no octal literal that goes on
  rcases mark with rfl | rfl <;> rfl

theorem magnitude?_longest (t rest : Text) (n : Nat) (h : Magnitude t n) :
    ∃ m length, magnitude? (t ++ rest) = some (m, length) ∧ t.length ≤ length := by
  cases h with
  | hexadecimal x ds mark some digits =>
    have longer := length_le_takeWhile isHexDigit ds rest digits
    have nonempty : ((ds ++ rest).takeWhile isHexDigit).isEmpty = false := by
      rw [List.isEmpty_eq_false_iff, ← List.length_pos_iff]
      exact Nat.lt_of_lt_of_le (List.length_pos_iff.mpr some) longer
    have marked : (x == 'x' || x == 'X') = true := by simpa using mark
    refine ⟨digitsValue 16 ((ds ++ rest).takeWhile isHexDigit), _, ?_, Nat.add_le_add_right longer 2⟩
    simp [magnitude?, marked, nonempty]
  | octal ds digits =>
    have longer := length_le_takeWhile isOctalDigit ds rest digits
    cases behind : ds ++ rest with
    | nil =>
      rw [behind] at longer
      refine ⟨0, _, ?_, Nat.succ_le_succ longer⟩
      rw [List.cons_append, behind, magnitude?]
      rfl
    | cons x es =>
      by_cases hex : ((x == 'x' || x == 'X') && !(es.takeWhile isHexDigit).isEmpty) = true
      · -- the literal is the zero alone, and the one that is read goes on behind the mark
        have alone : ds = [] := by
          cases ds with
          | nil => rfl
          | cons d ds =>
            cases behind
            have octal := digits x List.mem_cons_self
            simp only [Bool.and_eq_true, Bool.or_eq_true, beq_iff_eq] at hex
            rw [not_isOctalDigit_mark x hex.1] at octal
            cases octal
        subst alone
        refine ⟨digitsValue 16 (es.takeWhile isHexDigit), (es.takeWhile isHexDigit).length + 2, ?_, by simp⟩
        rw [List.cons_append, behind, magnitude?, if_pos hex]
      · rw [behind] at longer
        refine ⟨digitsValue 8 ((x :: es).takeWhile isOctalDigit), _, ?_, Nat.succ_le_succ longer⟩
        rw [List.cons_append, behind, magnitude?, if_neg hex, octal]
  | decimal d ds nonzero digits =>
    rw [List.forall_mem_cons] at digits
    have longer := length_le_takeWhile isDecimalDigit ds rest digits.2
    refine ⟨digitsValue 10 (d :: (ds ++ rest).takeWhile isDecimalDigit), _, ?_, Nat.succ_le_succ longer⟩
    simp [magnitude?, digits.1]

theorem Magnitude.unique {t : Text} {n m : Nat} (h : Magnitude t n) (h' : Magnitude t m) : n = m := by
  cases h with
  | hexadecimal x ds mark some digits =>
    cases h' with
    | hexadecimal => rfl
    | octal _ digits' =>
      have octal := digits' x List.mem_cons_self
      rw [not_isOctalDigit_mark x mark] at octal
      cases octal
    | decimal _ _ nonzero => exact absurd rfl nonzero
  | octal ds digits =>
    cases h' with
    | hexadecimal x _ mark =>
      have octal := digits x List.mem_cons_self
      rw [not_isOctalDigit_mark x mark] at octal
      cases octal
    | octal => rfl
    | decimal _ _ nonzero => exact absurd rfl nonzero
  | decimal d ds nonzero digits =>
    cases h' with
    | hexadecimal => exact absurd rfl nonzero
    | octal => exact absurd rfl nonzero
    | decimal => rfl

theorem Magnitude.head {t : Text} {n : Nat} (h : Magnitude t n) :
    ∃ c cs, t = c :: cs ∧ isDecimalDigit c = true := by
  cases h with
  | hexadecimal x ds => exact ⟨'0', x :: ds, rfl, rfl⟩
  | octal ds => exact ⟨'0', ds, rfl, rfl⟩
  | decimal d ds nonzero digits => exact ⟨d, ds, rfl, digits d List.mem_cons_self⟩

theorem integer?_digit (c : Char) (cs : Text) (digit : isDecimalDigit c = true) :
    integer? (c :: cs) = (magnitude? (c :: cs)).map fun (n, length) => ((n : Int), length) := by
  unfold integer?
  split
  · next same =>
    cases same
    cases digit
  · next same =>
    cases same
    cases digit
  · rfl

theorem integer?_sound (s : Text) (v : Int) (length : Nat) (h : s.integer? = some (v, length)) :
    ∃ t rest, s = t ++ rest ∧ t.length = length ∧ Literal t v := by
  have signed (sign : Char) (cs : Text) (n : Nat) (length : Nat) (h : magnitude? cs = some (n, length)) :
      ∃ t rest, sign :: cs = sign :: t ++ rest ∧ (sign :: t).length = length + 1 ∧ Magnitude t n := by
    obtain ⟨t, rest, rfl, rfl, literal⟩ := magnitude?_sound cs n length h
    exact ⟨t, rest, rfl, rfl, literal⟩
  unfold integer? at h
  split at h
  · next cs =>
    obtain ⟨⟨n, length⟩, read, same⟩ := Option.map_eq_some_iff.mp h
    cases same
    obtain ⟨t, rest, split, long, literal⟩ := signed '-' cs n length read
    exact ⟨_, rest, split, long, .minus literal⟩
  · next cs =>
    obtain ⟨⟨n, length⟩, read, same⟩ := Option.map_eq_some_iff.mp h
    cases same
    obtain ⟨t, rest, split, long, literal⟩ := signed '+' cs n length read
    exact ⟨_, rest, split, long, .plus literal⟩
  · obtain ⟨⟨n, length⟩, read, same⟩ := Option.map_eq_some_iff.mp h
    cases same
    obtain ⟨t, rest, split, long, literal⟩ := magnitude?_sound s n length read
    exact ⟨t, rest, split, long, .unsigned literal⟩

theorem integer?_longest (t rest : Text) (v : Int) (h : Literal t v) :
    ∃ w length, (t ++ rest).integer? = some (w, length) ∧ t.length ≤ length := by
  cases h with
  | unsigned h =>
    obtain ⟨c, cs, rfl, digit⟩ := h.head
    obtain ⟨m, length, read, longer⟩ := magnitude?_longest _ rest _ h
    refine ⟨m, length, ?_, longer⟩
    rw [List.cons_append] at read ⊢
    rw [integer?_digit c _ digit, read]
    rfl
  | @plus t n h =>
    obtain ⟨m, length, read, longer⟩ := magnitude?_longest t rest n h
    exact ⟨m, length + 1, by rw [List.cons_append, integer?, read]; rfl, Nat.succ_le_succ longer⟩
  | @minus t n h =>
    obtain ⟨m, length, read, longer⟩ := magnitude?_longest t rest n h
    exact ⟨-m, length + 1, by rw [List.cons_append, integer?, read]; rfl, Nat.succ_le_succ longer⟩

theorem Literal.unique {t : Text} {v w : Int} (h : Literal t v) (h' : Literal t w) : v = w := by
  have unsigned (sign : Char) (t : Text) (n : Nat) (other : isDecimalDigit sign = false) (h : Magnitude (sign :: t) n) :
      False := by
    obtain ⟨c, cs, same, digit⟩ := h.head
    cases same
    rw [other] at digit
    cases digit
  cases h with
  | unsigned h =>
    cases h' with
    | unsigned h' => rw [h.unique h']
    | plus => exact (unsigned '+' _ _ rfl h).elim
    | minus => exact (unsigned '-' _ _ rfl h).elim
  | plus h =>
    cases h' with
    | unsigned h' => exact (unsigned '+' _ _ rfl h').elim
    | plus h' => rw [h.unique h']
  | minus h =>
    cases h' with
    | unsigned h' => exact (unsigned '-' _ _ rfl h').elim
    | minus h' => rw [h.unique h']

/-- The text is read as a literal of this length exactly if that is the longest one at its start. -/
theorem integer?_eq_some_iff (s : Text) (v : Int) (length : Nat) :
    s.integer? = some (v, length) ↔
      ∃ t, t <+: s ∧ t.length = length ∧ Literal t v ∧ ∀ u w, u <+: s → Literal u w → u.length ≤ length := by
  have longest (u : Text) (w : Int) (start : u <+: s) (literal : Literal u w) :
      ∃ v' length', s.integer? = some (v', length') ∧ u.length ≤ length' := by
    obtain ⟨rest, rfl⟩ := start
    exact integer?_longest u rest w literal
  constructor
  · intro read
    obtain ⟨t, rest, split, long, literal⟩ := integer?_sound s v length read
    refine ⟨t, ⟨rest, split.symm⟩, long, literal, fun u w start literal' => ?_⟩
    obtain ⟨v', length', read', longer⟩ := longest u w start literal'
    cases read.symm.trans read'
    exact longer
  · rintro ⟨t, start, rfl, literal, most⟩
    obtain ⟨v', length', read, longer⟩ := longest t v start literal
    obtain ⟨t', rest, split, rfl, literal'⟩ := integer?_sound s v' length' read
    have shorter := most t' v' ⟨rest, split.symm⟩ literal'
    -- two pieces of one length at the start of a text are the same
    obtain rfl : t = t' := (List.prefix_of_prefix_length_le start ⟨rest, split.symm⟩ longer).eq_of_length
      (Nat.le_antisymm longer shorter)
    rw [read, literal.unique literal']

theorem integer?_eq_none_iff (s : Text) : s.integer? = none ↔ ∀ t v, t <+: s → ¬ Literal t v := by
  constructor
  · rintro none t v ⟨rest, rfl⟩ literal
    obtain ⟨w, length, read, -⟩ := integer?_longest t rest v literal
    rw [none] at read
    cases read
  · intro absent
    cases read : s.integer? with
    | none => rfl
    | some found =>
      obtain ⟨v, length⟩ := found
      obtain ⟨t, rest, split, -, literal⟩ := integer?_sound s v length read
      exact absurd literal (absent t v ⟨rest, split.symm⟩)

structure LongestLiteral (s t : Text) (v : Int) : Prop where
  start : t <+: s
  literal : Literal t v
  longest : ∀ u w, u <+: s → Literal u w → u.length ≤ t.length

/-- A decimal literal of more digits than are converted, and these digits. -/
structure Overlong (t digits : Text) : Prop where
  sign : t = digits ∨ t = '+' :: digits ∨ t = '-' :: digits
  first : digits.head? ≠ some '0'
  decimal : ∀ d ∈ digits, isDecimalDigit d = true
  many : maxDigits < digits.length

theorem integer?_eq_longest_iff (s : Text) (v : Int) (length : Nat) :
    s.integer? = some (v, length) ↔ ∃ t, LongestLiteral s t v ∧ t.length = length := by
  rw [integer?_eq_some_iff]
  constructor
  · rintro ⟨t, start, rfl, literal, longest⟩
    exact ⟨t, ⟨start, literal, longest⟩, rfl⟩
  · rintro ⟨t, ⟨start, literal, longest⟩, rfl⟩
    exact ⟨t, start, rfl, literal, longest⟩

theorem LongestLiteral.unique {s t u : Text} {v w : Int} (h : LongestLiteral s t v) (h' : LongestLiteral s u w) :
    t = u := by
  have shorter := h'.longest t v h.start h.literal
  have longer := h.longest u w h'.start h'.literal
  exact (List.prefix_of_prefix_length_le h.start h'.start shorter).eq_of_length (Nat.le_antisymm shorter longer)

theorem magnitudeDigits_spec (cs : Text) (some : magnitudeDigits cs ≠ []) :
    magnitudeDigits cs <+: cs ∧ (magnitudeDigits cs).head? ≠ Option.some '0' ∧
      (∀ d ∈ magnitudeDigits cs, isDecimalDigit d = true) ∧
      magnitude? cs = Option.some (digitsValue 10 (magnitudeDigits cs), (magnitudeDigits cs).length) := by
  unfold magnitudeDigits at some ⊢
  split at some
  · exact absurd rfl some
  · next zero =>
    cases cs with
    | nil => exact absurd rfl some
    | cons c cs =>
      have nonzero : c ≠ '0' := by
        rintro rfl
        exact zero cs rfl
      have digit : isDecimalDigit c = true := by
        by_contra other
        exact some (List.takeWhile_cons_of_neg other)
      refine ⟨List.takeWhile_prefix _, ?_, fun d mem => List.mem_takeWhile_imp mem, ?_⟩
      · simp [digit, nonzero]
      · simp [magnitude?, digit]

theorem longest_of_decimalDigits (s : Text) (some : s.decimalDigits ≠ []) :
    ∃ t v, LongestLiteral s t v ∧
      (t = s.decimalDigits ∨ t = '+' :: s.decimalDigits ∨ t = '-' :: s.decimalDigits) := by
  have same (t : Text) (v : Int) (start : t <+: s) (read : s.integer? = Option.some (v, t.length)) :
      LongestLiteral s t v := by
    obtain ⟨u, longest, length⟩ := (integer?_eq_longest_iff s v t.length).mp read
    obtain rfl : t = u := (List.prefix_of_prefix_length_le start longest.start (Nat.le_of_eq length.symm)).eq_of_length
      length.symm
    exact longest
  unfold decimalDigits at some ⊢
  split at some
  · next cs =>
    obtain ⟨start, -, -, read⟩ := magnitudeDigits_spec cs some
    refine ⟨_, -(digitsValue 10 (magnitudeDigits cs)), same _ _ (List.cons_prefix_cons.mpr ⟨rfl, start⟩) ?_,
      .inr (.inr rfl)⟩
    rw [integer?, read]
    rfl
  · next cs =>
    obtain ⟨start, -, -, read⟩ := magnitudeDigits_spec cs some
    refine ⟨_, digitsValue 10 (magnitudeDigits cs), same _ _ (List.cons_prefix_cons.mpr ⟨rfl, start⟩) ?_, .inr (.inl rfl)⟩
    rw [integer?, read]
    rfl
  · next minus plus =>
    obtain ⟨start, -, -, read⟩ := magnitudeDigits_spec s some
    refine ⟨_, digitsValue 10 s.magnitudeDigits, same _ _ start ?_, .inl rfl⟩
    unfold integer?
    split
    · exact absurd rfl (minus _)
    · exact absurd rfl (plus _)
    · rw [read]
      rfl

theorem decimalDigits_spec (s : Text) (some : s.decimalDigits ≠ []) :
    s.decimalDigits.head? ≠ Option.some '0' ∧ ∀ d ∈ s.decimalDigits, isDecimalDigit d = true := by
  unfold decimalDigits at some ⊢
  split at some
  all_goals exact ⟨(magnitudeDigits_spec _ some).2.1, (magnitudeDigits_spec _ some).2.2.1⟩

theorem magnitudeDigits_ne_nil (d : Char) (cs : Text) (digit : isDecimalDigit d = true) (nonzero : d ≠ '0') :
    magnitudeDigits (d :: cs) ≠ [] := by
  unfold magnitudeDigits
  split
  · next same =>
    cases same
    exact absurd rfl nonzero
  · simp [digit]

theorem LongestLiteral.overlong_iff {s t digits : Text} {v : Int} (h : LongestLiteral s t v) :
    Overlong t digits ↔ digits = s.decimalDigits ∧ maxDigits < digits.length := by
  constructor
  · rintro ⟨sign, first, decimal, many⟩
    refine ⟨?_, many⟩
    obtain ⟨d, ds, rfl⟩ := List.exists_cons_of_ne_nil (List.ne_nil_of_length_pos (Nat.zero_lt_of_lt many))
    have digit := decimal d List.mem_cons_self
    have nonzero : d ≠ '0' := fun zero => first (by rw [zero]; rfl)
    have other (c : Char) (refused : isDecimalDigit c = false) : d ≠ c := by
      rintro rfl
      rw [digit] at refused
      cases refused
    have counted : s.decimalDigits ≠ [] := by
      obtain ⟨rest, rfl⟩ := h.start
      rcases sign with rfl | rfl | rfl
      · unfold decimalDigits
        split
        · next same => exact absurd (List.cons.inj same).1 (other '-' rfl)
        · next same => exact absurd (List.cons.inj same).1 (other '+' rfl)
        · exact magnitudeDigits_ne_nil d _ digit nonzero
      · exact magnitudeDigits_ne_nil d _ digit nonzero
      · exact magnitudeDigits_ne_nil d _ digit nonzero
    obtain ⟨t', v', longest, sign'⟩ := s.longest_of_decimalDigits counted
    obtain rfl := h.unique longest
    -- a sign is no digit, so both spellings have the same one
    rcases sign with rfl | rfl | rfl
    · rcases sign' with same | same | same
      · exact same
      · exact absurd (List.cons.inj same).1 (other '+' rfl)
      · exact absurd (List.cons.inj same).1 (other '-' rfl)
    · rcases sign' with same | same | same
      · have refused := (s.decimalDigits_spec counted).2 '+' (same ▸ List.mem_cons_self)
        cases refused
      · exact (List.cons.inj same).2
      · cases (List.cons.inj same).1
    · rcases sign' with same | same | same
      · have refused := (s.decimalDigits_spec counted).2 '-' (same ▸ List.mem_cons_self)
        cases refused
      · cases (List.cons.inj same).1
      · exact (List.cons.inj same).2
  · rintro ⟨rfl, many⟩
    have counted : s.decimalDigits ≠ [] := List.ne_nil_of_length_pos (Nat.zero_lt_of_lt many)
    obtain ⟨t', v', longest, sign⟩ := s.longest_of_decimalDigits counted
    obtain rfl := h.unique longest
    exact ⟨sign, (s.decimalDigits_spec counted).1, (s.decimalDigits_spec counted).2, many⟩

theorem integer_eq (s : Text) :
    s.integer = if maxDigits < s.decimalDigits.length then .error (.crash (.longNumber s.decimalDigits))
      else .ok s.integer? := by
  unfold integer requireFewDigits
  split
  · rfl
  · rfl

theorem integer_eq_some_iff (s : Text) (v : Int) (length : Nat) :
    s.integer = .ok (some (v, length)) ↔
      ∃ t, LongestLiteral s t v ∧ t.length = length ∧ ∀ digits, ¬ Overlong t digits := by
  rw [integer_eq]
  constructor
  · intro read
    split at read
    · cases read
    · next few =>
      obtain ⟨t, longest, length⟩ := (integer?_eq_longest_iff s v _).mp (Except.ok.inj read)
      refine ⟨t, longest, length, fun digits long => few ?_⟩
      obtain ⟨rfl, many⟩ := longest.overlong_iff.mp long
      exact many
  · rintro ⟨t, longest, length, short⟩
    rw [if_neg fun many => short _ (longest.overlong_iff.mpr ⟨rfl, many⟩)]
    rw [(integer?_eq_longest_iff s v _).mpr ⟨t, longest, length⟩]

theorem integer_eq_none_iff (s : Text) : s.integer = .ok none ↔ ∀ t v, t <+: s → ¬ Literal t v := by
  rw [integer_eq, ← integer?_eq_none_iff]
  constructor
  · intro read
    split at read
    · cases read
    · exact Except.ok.inj read
  · intro none
    have few : ¬ maxDigits < s.decimalDigits.length := by
      intro many
      obtain ⟨t, v, longest, -⟩ := s.longest_of_decimalDigits (List.ne_nil_of_length_pos (Nat.zero_lt_of_lt many))
      rw [(integer?_eq_longest_iff s v _).mpr ⟨t, longest, rfl⟩] at none
      cases none
    rw [if_neg few, none]

theorem integer_eq_error_iff (s : Text) (e : Failure) :
    s.integer = .error e ↔
      ∃ t v digits, LongestLiteral s t v ∧ Overlong t digits ∧ e = .crash (.longNumber digits) := by
  rw [integer_eq]
  constructor
  · intro read
    split at read
    · next many =>
      cases read
      obtain ⟨t, v, longest, -⟩ := s.longest_of_decimalDigits (List.ne_nil_of_length_pos (Nat.zero_lt_of_lt many))
      exact ⟨t, v, s.decimalDigits, longest, longest.overlong_iff.mpr ⟨rfl, many⟩, rfl⟩
    · cases read
  · rintro ⟨t, v, digits, longest, long, rfl⟩
    obtain ⟨rfl, many⟩ := longest.overlong_iff.mp long
    exact if_pos many

theorem number?_eq_some_iff (text : Text) (n : Nat) :
    text.number? = some n ↔ Literal text n ∧ ∀ digits, ¬ Overlong text digits := by
  constructor
  · intro h
    unfold number? at h
    split at h
    · next value length read =>
      split at h
      · next whole =>
        obtain ⟨nonneg, rfl⟩ := whole
        cases h
        obtain ⟨t, longest, length, short⟩ := (integer_eq_some_iff text value _).mp read
        obtain rfl := longest.start.eq_of_length length
        rw [Int.toNat_of_nonneg nonneg]
        exact ⟨longest.literal, short⟩
      · cases h
    · cases h
    · cases h
  · rintro ⟨literal, short⟩
    have longest : LongestLiteral text text n := ⟨List.prefix_rfl, literal, fun u w start _ => start.length_le⟩
    have read := (integer_eq_some_iff text n text.length).mpr ⟨text, longest, rfl, short⟩
    simp [number?, read]

end Text

def Token.inNumber (t : Token) : Bool := t.kind == .reference || t.isNumeric

namespace Protocol

/-- What a token adds to the text of a number: a word its own text, a reference what it stands for. -/
def numberPart? (p : Protocol) (t : Token) : Option Text :=
  if t.kind = .reference then p.referenceText t.text t.isQuoted else some t.text

theorem numberText_eq_ok_iff (p : Protocol) (ts : List Token) (text : Text) (count : Nat) :
    (p.numberText ts).result = .ok (text, count) ↔
      ∃ parts, (ts.takeWhile Token.inNumber).mapM p.numberPart? = some parts ∧ text = parts.flatten ∧
        count = parts.length := by
  induction ts generalizing text count with
  | nil => simp [numberText, eq_comm]
  | cons t ts ih =>
    unfold numberText
    split
    · next reference =>
      have taken : t.inNumber = true := by simp [Token.inNumber, reference]
      rw [List.takeWhile_cons_of_pos taken, List.mapM_cons, numberPart?, if_pos reference]
      constructor
      · intro h
        obtain ⟨value, resolved, h⟩ := (Traced.bind_eq_ok_iff _ _ _).mp h
        obtain ⟨⟨back, count'⟩, rest, h⟩ := (Traced.bind_eq_ok_iff _ _ _).mp h
        cases h
        obtain ⟨parts, found, rfl, rfl⟩ := (ih back count').mp rest
        have front := (p.resolve_joined_iff t _).mp ⟨value, resolved, rfl⟩
        exact ⟨Token.joined value :: parts, by simp [front, found], rfl, rfl⟩
      · rintro ⟨parts, found, rfl, rfl⟩
        obtain ⟨front, hf, found⟩ := Option.bind_eq_some_iff.mp found
        obtain ⟨others, ho, same⟩ := Option.bind_eq_some_iff.mp found
        cases same
        obtain ⟨value, resolved, rfl⟩ := (p.resolve_joined_iff t front).mpr hf
        rw [Traced.bind_of_ok _ _ value resolved, Traced.bind_of_ok _ _ _ ((ih _ _).mpr ⟨others, ho, rfl, rfl⟩)]
        rfl
    · next reference =>
      split
      · next numeric =>
        have taken : t.inNumber = true := by simp [Token.inNumber, numeric]
        rw [List.takeWhile_cons_of_pos taken, List.mapM_cons, numberPart?, if_neg reference]
        constructor
        · intro h
          obtain ⟨⟨back, count'⟩, rest, h⟩ := (Traced.bind_eq_ok_iff _ _ _).mp h
          cases h
          obtain ⟨parts, found, rfl, rfl⟩ := (ih back count').mp rest
          exact ⟨t.text :: parts, by simp [found], rfl, rfl⟩
        · rintro ⟨parts, found, rfl, rfl⟩
          obtain ⟨_, ⟨⟩, found⟩ := Option.bind_eq_some_iff.mp found
          obtain ⟨others, ho, same⟩ := Option.bind_eq_some_iff.mp found
          cases same
          rw [Traced.bind_of_ok _ _ _ ((ih _ _).mpr ⟨others, ho, rfl, rfl⟩)]
          rfl
      · next other =>
        have left : t.inNumber = false := by simp [Token.inNumber, reference, other]
        rw [List.takeWhile_cons_of_neg (by simp [left])]
        simp [eq_comm]

end Protocol

/-- The integer that is read at the start of a text is the longest literal there, and none is read where there is no
literal. Reading crashes exactly if that literal is decimal and too long. An argument gives a number within the limit
exactly if the texts of its parts, put together, are a literal of that value and of nothing else, and not too long. -/
theorem Text.integer_reads_longest (s : Text) :
    (∀ v length, s.integer = .ok (some (v, length)) ↔
      ∃ t, LongestLiteral s t v ∧ t.length = length ∧ ∀ digits, ¬ Overlong t digits) ∧
    (s.integer = .ok none ↔ ∀ t v, t <+: s → ¬ Literal t v) ∧
    (∀ e, s.integer = .error e ↔
      ∃ t v digits, LongestLiteral s t v ∧ Overlong t digits ∧ e = .crash (.longNumber digits)) ∧
    ∀ (p : Protocol) (a b : Arguments) (limit : Int) (n : Nat),
      (p.compileNumber a limit).result = .ok (n, b) ↔
        ∃ parts, (a.rest.takeWhile Token.inNumber).mapM p.numberPart? = some parts ∧ Literal parts.flatten n ∧
          (∀ digits, ¬ Overlong parts.flatten digits) ∧ (n : Int) ≤ limit ∧ b = a.advance parts.length := by
  refine ⟨integer_eq_some_iff s, integer_eq_none_iff s, integer_eq_error_iff s, fun p a b limit n => ?_⟩
  rw [p.compileNumber_eq_ok_iff]
  constructor
  · rintro ⟨text, count, read, number, small, rfl⟩
    obtain ⟨parts, found, rfl, rfl⟩ := (p.numberText_eq_ok_iff _ _ _).mp read
    obtain ⟨literal, short⟩ := (number?_eq_some_iff _ n).mp number
    exact ⟨parts, found, literal, short, small, rfl⟩
  · rintro ⟨parts, found, literal, short, small, rfl⟩
    have read := (p.numberText_eq_ok_iff a.rest _ _).mpr ⟨parts, found, rfl, rfl⟩
    exact ⟨_, _, read, (number?_eq_some_iff _ n).mpr ⟨literal, short⟩, small, rfl⟩

/-- One digit more than are converted. -/
theorem Text.integer_refuses_long :
    let s : Text := List.replicate 4301 '1'
    LongestLiteral s s (positional 10 s) ∧ s.integer = .error (.crash (.longNumber s)) := by
  intro s
  have digits : ∀ d ∈ s, isDecimalDigit d = true := by
    intro d mem
    rw [List.eq_of_mem_replicate mem]
    rfl
  have literal : Literal s (positional 10 s) :=
    .unsigned (.decimal '1' (List.replicate 4300 '1') (by decide) digits)
  have longest : LongestLiteral s s (positional 10 s) :=
    ⟨List.prefix_rfl, literal, fun u w start _ => start.length_le⟩
  have many : maxDigits < s.length := by
    rw [List.length_replicate]
    decide
  have long : Overlong s s := ⟨.inl rfl, by rw [List.head?_replicate]; decide, digits, many⟩
  exact ⟨longest, (integer_eq_error_iff s _).mpr ⟨s, _, s, longest, long, rfl⟩⟩

/-- Literals that end earlier than they seem to. -/
example : ["0x".toList, "-0X1fg".toList, "08".toList, "+017".toList, "00x1".toList, "+-1".toList].map Text.integer? =
    [some (0, 1), some (-31, 5), some (0, 1), some (15, 4), some (0, 2), none] := by
  decide

end DeviceProtocol
