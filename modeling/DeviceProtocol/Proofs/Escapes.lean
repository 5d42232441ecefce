import Mathlib.Data.List.TakeWhile
import DeviceProtocol.Compile.Cell
import DeviceProtocol.Proofs.Success
set_option autoImplicit false

/-!
Escapes in quoted text. Most of them are one character; an escape with a number takes as many digits as there are, up
to a limit of its own, so what stands behind it may belong to it.
-/
namespace DeviceProtocol

theorem ne_of_isHexDigit (d c : Char) (hex : isHexDigit d = true) (other : isHexDigit c = false) : d ≠ c := by
  rintro rfl
  rw [hex] at other
  cases other

namespace Cell

/-- An escape with a number: how many characters stand before its digits, what the digits are, and how many of
them it takes at most. -/
structure DigitRun where
  lead : Nat
  digit : Char → Bool
  limit : Nat

def DigitRun.digits (r : DigitRun) (text : Text) : Text := ((text.drop r.lead).take r.limit).takeWhile r.digit

def digitRun? : Char → Option DigitRun
  | '0' => some ⟨0, isOctalDigit, 4⟩
  | 'x' => some ⟨1, isHexDigit, 2⟩
  | c => if isDecimalDigit c then some ⟨0, isDecimalDigit, 3⟩ else none

/-- An escape that is all of the text would take this character too. -/
def escapeTakes (text : Text) (c : Char) : Bool :=
  (text.head?.bind digitRun?).any fun r => text.length < r.lead + r.limit && r.digit c

theorem digitRun?_cases (c : Char) (r : DigitRun) (h : digitRun? c = some r) :
    c = '0' ∧ r = ⟨0, isOctalDigit, 4⟩ ∨ c = 'x' ∧ r = ⟨1, isHexDigit, 2⟩ ∨
      c ≠ '0' ∧ isDecimalDigit c = true ∧ r = ⟨0, isDecimalDigit, 3⟩ := by
  unfold digitRun? at h
  split at h
  · cases h
    exact .inl ⟨rfl, rfl⟩
  · cases h
    exact .inr (.inl ⟨rfl, rfl⟩)
  · rename_i zero _
    split at h
    · rename_i digit
      cases h
      exact .inr (.inr ⟨zero, digit, rfl⟩)
    · cases h

theorem isDecimalDigit_of_digitRun?_eq_none (c : Char) (h : digitRun? c = none) : isDecimalDigit c = false := by
  by_cases zero : c = '0'
  · subst zero
    cases h
  by_cases hex : c = 'x'
  · subst hex
    cases h
  · simpa [digitRun?, zero, hex] using h

theorem isHexDigit_of_digit (c d : Char) (r : DigitRun) (h : digitRun? c = some r) (hd : r.digit d = true) :
    isHexDigit d = true := by
  obtain ⟨-, rfl⟩ | ⟨-, rfl⟩ | ⟨-, -, rfl⟩ := digitRun?_cases c r h
  · simp only [isOctalDigit, Bool.and_eq_true, decide_eq_true_eq] at hd
    have high : d ≤ '9' := Char.le_trans hd.2 (by decide)
    simp [isHexDigit, isDecimalDigit, hd.1, high]
  · exact hd
  · simp [isHexDigit, show isDecimalDigit d = true from hd]

theorem escape_decimal (c : Char) (cs : Text) (zero : c ≠ '0') (h : isDecimalDigit c = true) :
    escape (c :: cs) =
      let digits := ((c :: cs).take 3).takeWhile isDecimalDigit
      if 0xFF < digitsValue 10 digits then fault (.decimalOutOfRange (digitsValue 10 digits) digits)
      else ofNumber (digitsValue 10 digits) digits.length := by
  have letter : letterEscape? c = none := by
    unfold letterEscape?
    split <;> first | rfl | exact absurd h (by decide)
  unfold escape
  split
  · contradiction
  · rename_i heq; cases heq; exact absurd h (by decide)
  · rename_i heq; cases heq; exact absurd h (by decide)
  · rename_i heq; cases heq; exact absurd rfl zero
  · rename_i heq; cases heq; exact absurd h (by decide)
  · rename_i heq
    cases heq
    simp [letter, h]

theorem escape_congr (c : Char) (cs ds : Text) (r : DigitRun) (hr : digitRun? c = some r)
    (same : r.digits (c :: cs) = r.digits (c :: ds)) (out : List Cell × Nat)
    (h : escape (c :: cs) = .ok out) : escape (c :: ds) = .ok out := by
  obtain ⟨rfl, rfl⟩ | ⟨rfl, rfl⟩ | ⟨zero, digit, rfl⟩ := digitRun?_cases c r hr
  · simp only [DigitRun.digits, List.drop_zero] at same
    simp only [escape] at h ⊢
    rwa [← same]
  · simp only [DigitRun.digits, List.drop_one, List.tail_cons] at same
    simp only [escape] at h ⊢
    rw [← same]
    split at h
    · cases h
    · rename_i nonempty
      rw [if_neg nonempty]
      exact h
  · simp only [DigitRun.digits, List.drop_zero] at same
    rw [escape_decimal c _ zero digit] at h ⊢
    rwa [← same]

theorem escape_length (c : Char) (cs : Text) (r : DigitRun) (hr : digitRun? c = some r) (front : List Cell)
    (n : Nat) (h : escape (c :: cs) = .ok (front, n)) :
    n = r.lead + (r.digits (c :: cs)).length ∧ r.lead < n ∧ ∃ b, front = [byte b] := by
  obtain ⟨rfl, rfl⟩ | ⟨rfl, rfl⟩ | ⟨zero, digit, rfl⟩ := digitRun?_cases c r hr
  · simp only [escape] at h
    split at h
    · cases h
    · obtain ⟨rfl, rfl⟩ := ofNumber_eq_ok h
      refine ⟨(Nat.zero_add _).symm, ?_, _, rfl⟩
      simp [show isOctalDigit '0' = true from rfl]
  · simp only [escape] at h
    split at h
    · cases h
    · rename_i nonempty
      obtain ⟨rfl, rfl⟩ := ofNumber_eq_ok h
      refine ⟨Nat.add_comm _ _, ?_, _, rfl⟩
      have := List.length_pos_iff.mpr (mt List.isEmpty_iff.mpr nonempty)
      dsimp only
      omega
  · rw [escape_decimal c _ zero digit] at h
    dsimp only at h
    split at h
    · cases h
    · obtain ⟨rfl, rfl⟩ := ofNumber_eq_ok h
      refine ⟨(Nat.zero_add _).symm, ?_, _, rfl⟩
      simp [digit]

theorem escape_single (c : Char) (cs : Text) (hr : digitRun? c = none) (front : List Cell) (n : Nat)
    (h : escape (c :: cs) = .ok (front, n)) : n = 1 ∧ ∀ ds, escape (c :: ds) = .ok (front, n) := by
  have digit := isDecimalDigit_of_digitRun?_eq_none c hr
  unfold escape at h
  split at h
  · contradiction
  · rename_i heq
    cases heq
    cases h
    exact ⟨rfl, fun _ => rfl⟩
  · rename_i heq
    cases heq
    cases h
    exact ⟨rfl, fun _ => rfl⟩
  · rename_i heq
    cases heq
    cases hr
  · rename_i heq
    cases heq
    cases hr
  · rename_i question underscore zero x heq
    cases heq
    simp only [digit] at h
    unfold escape
    split at h
    · rename_i b hb
      cases h
      refine ⟨rfl, fun ds => ?_⟩
      simp [hb]
    · rename_i hb
      split at h
      · contradiction
      · split at h
        · cases h
        · rename_i hd
          cases h
          refine ⟨rfl, fun ds => ?_⟩
          simp [hb, digit, hd]

theorem DigitRun.digits_prefix (r : DigitRun) (text : Text) : r.digits text <+: text.drop r.lead :=
  (List.takeWhile_prefix _).trans (List.take_prefix _ _)

theorem DigitRun.digits_length_le (r : DigitRun) (text : Text) : (r.digits text).length ≤ r.limit :=
  Nat.le_trans (List.takeWhile_prefix _).length_le (List.length_take_le ..)

theorem DigitRun.digit_of_mem (r : DigitRun) (text : Text) (c : Char) (h : c ∈ r.digits text) : r.digit c = true :=
  List.mem_takeWhile_imp h

theorem DigitRun.digits_append (r : DigitRun) (e x : Text) (lead : r.lead ≤ e.length)
    (whole : r.digits e = e.drop r.lead) :
    r.digits (e ++ x) = r.digits e ++ (x.take (r.lead + r.limit - e.length)).takeWhile r.digit := by
  have digits : ∀ c ∈ e.drop r.lead, r.digit c = true := fun c hc => r.digit_of_mem e c (whole ▸ hc)
  have short : (e.drop r.lead).length ≤ r.limit := whole ▸ r.digits_length_le e
  have left : r.limit - (e.drop r.lead).length = r.lead + r.limit - e.length := by
    rw [List.length_drop]
    omega
  rw [whole, DigitRun.digits, List.drop_append_of_le_length lead, List.take_append, left,
    List.take_of_length_le short, List.takeWhile_append_of_pos digits]

/-- The digits are all that is read of a text. -/
theorem DigitRun.digits_take (r : DigitRun) (text : Text) :
    r.digits (text.take (r.lead + (r.digits text).length)) = r.digits text := by
  have own : (text.take (r.lead + (r.digits text).length)).drop r.lead = r.digits text := by
    rw [List.drop_take, Nat.add_sub_cancel_left]
    exact (List.prefix_iff_eq_take.mp (r.digits_prefix text)).symm
  rw [DigitRun.digits, own, List.take_of_length_le (r.digits_length_le text)]
  exact List.takeWhile_eq_self_iff.mpr fun d hd => r.digit_of_mem text d hd

theorem digits_eq_drop (c : Char) (cs : Text) (r : DigitRun) (hr : digitRun? c = some r) (front : List Cell)
    (h : escape (c :: cs) = .ok (front, (c :: cs).length)) : r.digits (c :: cs) = (c :: cs).drop r.lead := by
  obtain ⟨length, -, -⟩ := escape_length c cs r hr front _ h
  refine (r.digits_prefix _).eq_of_length ?_
  rw [List.length_drop, length, Nat.add_sub_cancel_left]

theorem escapeTakes_eq (c d : Char) (e : Text) (r : DigitRun) (hr : digitRun? c = some r) :
    escapeTakes (c :: e) d = (decide ((c :: e).length < r.lead + r.limit) && r.digit d) := by
  simp [escapeTakes, hr]

theorem no_more_digits_iff (c : Char) (e x : Text) (r : DigitRun) (hr : digitRun? c = some r) :
    (x.take (r.lead + r.limit - (c :: e).length)).takeWhile r.digit = [] ↔
      ∀ d ∈ x.head?, escapeTakes (c :: e) d = false := by
  simp only [escapeTakes_eq c _ e r hr]
  cases x with
  | nil => simp
  | cons d ds =>
    cases room : r.lead + r.limit - (c :: e).length with
    | zero =>
      have full : ¬ (c :: e).length < r.lead + r.limit := by omega
      rw [List.length_cons] at full
      simp [full]
    | succ m =>
      have more : (c :: e).length < r.lead + r.limit := by omega
      rw [List.length_cons] at more
      cases hd : r.digit d <;> simp [more, hd]

theorem escape_split (text : Text) (front : List Cell) (n : Nat) (h : escape text = .ok (front, n)) :
    ∃ c e x, text = c :: e ++ x ∧ n = (c :: e).length ∧ escape (c :: e) = .ok (front, n) ∧
      (∀ d ∈ e, isHexDigit d = true) ∧ ∀ d ∈ x.head?, escapeTakes (c :: e) d = false := by
  cases text with
  | nil => cases h
  | cons c cs =>
    cases hr : digitRun? c with
    | none =>
      obtain ⟨rfl, same⟩ := escape_single c cs hr front n h
      refine ⟨c, [], cs, rfl, rfl, same [], by simp, ?_⟩
      simp [escapeTakes, hr]
    | some r =>
      obtain ⟨hn, lead, -⟩ := escape_length c cs r hr front n h
      have le : n ≤ (c :: cs).length := by
        have := (r.digits_prefix (c :: cs)).length_le
        rw [List.length_drop] at this
        omega
      have first : (c :: cs).take n = c :: cs.take (n - 1) := by
        cases n with
        | zero => omega
        | succ n => rfl
      have length : n = (c :: cs.take (n - 1)).length := by
        rw [← first, List.length_take, Nat.min_eq_left le]
      -- cut off behind its digits, the escape still has the same ones
      have digits : r.digits (c :: cs.take (n - 1)) = r.digits (c :: cs) := by
        rw [← first, hn]
        exact r.digits_take (c :: cs)
      have alone := escape_congr c cs (cs.take (n - 1)) r hr digits.symm _ h
      have whole := digits_eq_drop c (cs.take (n - 1)) r hr front (by rw [← length]; exact alone)
      refine ⟨c, cs.take (n - 1), cs.drop (n - 1), by simp, length, alone, ?_, ?_⟩
      · intro d hd
        have inside : d ∈ (c :: cs.take (n - 1)).drop r.lead := by
          obtain ⟨-, rfl⟩ | ⟨-, rfl⟩ | ⟨-, -, rfl⟩ := digitRun?_cases c r hr <;> simp [hd]
        exact isHexDigit_of_digit c d r hr (r.digit_of_mem _ d (whole ▸ inside))
      · refine (no_more_digits_iff c _ _ r hr).mp ?_
        have more := r.digits_append (c :: cs.take (n - 1)) (cs.drop (n - 1)) (by omega) whole
        rw [List.cons_append, List.take_append_drop, digits] at more
        exact List.self_eq_append_right.mp more

theorem escape_append (c : Char) (e x : Text) (front : List Cell) (h : escape (c :: e) = .ok (front, (c :: e).length))
    (done : ∀ d ∈ x.head?, escapeTakes (c :: e) d = false) :
    escape (c :: e ++ x) = .ok (front, (c :: e).length) := by
  cases hr : digitRun? c with
  | none => exact (escape_single c e hr front _ h).2 (e ++ x)
  | some r =>
    refine escape_congr c e (e ++ x) r hr ?_ _ h
    have lead : r.lead ≤ (c :: e).length := Nat.le_of_lt (escape_length c e r hr front _ h).2.1
    have more := r.digits_append (c :: e) x lead (digits_eq_drop c e r hr front h)
    rw [(no_more_digits_iff c e x r hr).mpr done, List.append_nil] at more
    exact more.symm

theorem escape_more (c d : Char) (e x : Text) (front front' : List Cell) (n : Nat)
    (h : escape (c :: e) = .ok (front, (c :: e).length)) (takes : escapeTakes (c :: e) d = true)
    (h' : escape (c :: e ++ d :: x) = .ok (front', n)) :
    ∃ ds y, d :: x = ds ++ y ∧ ds ≠ [] ∧ n = (c :: e).length + ds.length ∧
      (∀ b ∈ ds, isHexDigit b = true) ∧ (∃ b, front = [byte b]) ∧ ∃ b, front' = [byte b] := by
  cases hr : digitRun? c with
  | none => simp [escapeTakes, hr] at takes
  | some r =>
    obtain ⟨length, lead, single⟩ := escape_length c e r hr front _ h
    obtain ⟨length', -, single'⟩ := escape_length c (e ++ d :: x) r hr front' n h'
    have more := r.digits_append (c :: e) (d :: x) (Nat.le_of_lt lead) (digits_eq_drop c e r hr front h)
    have rest := (no_more_digits_iff c e (d :: x) r hr).not.mpr (by simp [takes])
    obtain ⟨y, hy⟩ := (List.takeWhile_prefix r.digit (l := (d :: x).take (r.lead + r.limit - (c :: e).length))).trans
      (List.take_prefix _ _)
    refine ⟨_, y, hy.symm, rest, ?_, ?_, single, single'⟩
    · rw [length', ← List.cons_append, more, List.length_append]
      omega
    · intro b hb
      exact isHexDigit_of_digit c b r hr (List.mem_takeWhile_imp hb)

theorem isHexDigit_of_escapeTakes (text : Text) (d : Char) (h : escapeTakes text d = true) :
    isHexDigit d = true := by
  cases text with
  | nil => cases h
  | cons c e =>
    cases hr : digitRun? c with
    | none => simp [escapeTakes, hr] at h
    | some r =>
      rw [escapeTakes_eq c d e r hr, Bool.and_eq_true] at h
      exact isHexDigit_of_digit c d r hr h.2

theorem ofQuoted_char (c : Char) (y : Text) (allowed : isForbidden c = false) (backslash : c ≠ '\\') :
    ofQuoted (c :: y) = (ofQuoted y).map (char c :: ·) := by
  rw [ofQuoted]
  simp only [allowed, backslash, if_false, Bool.false_eq_true]
  cases ofQuoted y <;> rfl

theorem ofQuoted_plain (front y : Text) (plain : ∀ c ∈ front, isForbidden c = false ∧ c ≠ '\\') :
    ofQuoted (front ++ y) = (ofQuoted y).map (front.map char ++ ·) := by
  induction front with
  | nil =>
    show ofQuoted y = _
    cases ofQuoted y <;> rfl
  | cons c front ih =>
    rw [List.forall_mem_cons] at plain
    rw [List.cons_append, ofQuoted_char c _ plain.1.1 plain.1.2, ih plain.2]
    cases ofQuoted y <;> rfl

theorem ofQuoted_escape (text : Text) (front : List Cell) (n : Nat) (h : escape text = .ok (front, n)) :
    ofQuoted ('\\' :: text) = (ofQuoted (text.drop n)).map (front ++ ·) := by
  rw [ofQuoted, h]
  have allowed : isForbidden '\\' = false := by decide
  simp only [allowed, if_true, if_false, Bool.false_eq_true]
  show (ofQuoted (text.drop n) >>= _) = _
  cases ofQuoted (text.drop n) <;> rfl

theorem ofQuoted_backslash (text : Text) (out : List Cell) (h : ofQuoted ('\\' :: text) = .ok out) :
    ∃ front n back, escape text = .ok (front, n) ∧ ofQuoted (text.drop n) = .ok back ∧ out = front ++ back := by
  cases he : escape text with
  | error f =>
    rw [ofQuoted, he] at h
    cases h
  | ok r =>
    obtain ⟨front, n⟩ := r
    rw [ofQuoted_escape text front n he] at h
    obtain ⟨back, hb, rfl⟩ := (Except.map_eq_ok_iff _ _ _).mp h
    exact ⟨front, n, back, rfl, hb, rfl⟩

theorem allowed_of_isHexDigit (d : Char) (h : isHexDigit d = true) : isForbidden d = false := by
  simp only [isHexDigit, isDecimalDigit, Bool.or_eq_true, Bool.and_eq_true, decide_eq_true_eq, Char.le_def,
    UInt32.le_iff_toNat_le, Char.reduceVal, UInt32.reduceToNat, Char.toNat_val] at h
  simp only [isForbidden, decide_eq_false_iff_not]
  omega

theorem ofQuoted_digits (ds y : Text) (h : ∀ d ∈ ds, isHexDigit d = true) :
    ofQuoted (ds ++ y) = (ofQuoted y).map (ds.map char ++ ·) := by
  exact ofQuoted_plain ds y fun d hd => ⟨allowed_of_isHexDigit d (h d hd), ne_of_isHexDigit d _ (h d hd) (by decide)⟩

end Cell
end DeviceProtocol
