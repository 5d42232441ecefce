import DeviceProtocol.Proofs.OrderlyReading
import DeviceProtocol.Proofs.PrintedStrings
import DeviceProtocol.Proofs.QuotedValues
set_option autoImplicit false

/-!
Text that is put between double quotes. The scanner, the compiler and the function that sets the backslashes each go through
the text with an eye of their own for what is escaped; this is where they agree. A quote gets a backslash once and not
again, no quote ends the string too early, and a quote with its backslash stands for the quote.
-/
namespace DeviceProtocol

namespace Text

/-- Text between double quotes: a quote stands behind a backslash only, and behind every backslash stands a character. -/
inductive Guarded : Text → Prop
  | nil : Guarded []
  | char {c : Char} {cs : Text} (plain : c ∉ ['"', '\\']) (rest : Guarded cs) : Guarded (c :: cs)
  | pair {c : Char} {cs : Text} (rest : Guarded cs) : Guarded ('\\' :: c :: cs)

theorem guarded_escapeQuotes (v : Text) : Guarded (escapeQuotes v) := by
  fun_induction escapeQuotes v with
  | case1 => exact .nil
  | case2 => exact .pair .nil
  | case3 c cs ih => exact .pair ih
  | case4 cs ih => exact .pair ih
  | case5 c cs last escape quote ih =>
    have backslash : c ≠ '\\' := by
      rintro rfl
      cases cs with
      | nil => exact last rfl rfl
      | cons d ds => exact escape d ds rfl rfl
    exact .char (by simpa using ⟨quote, backslash⟩) ih

theorem Guarded.escapeQuotes_eq {t : Text} (h : Guarded t) : escapeQuotes t = t := by
  induction h with
  | nil => rfl
  | @char c cs plain rest ih =>
    simp only [List.mem_cons, List.not_mem_nil, or_false, not_or] at plain
    rw [escapeQuotes_plain c cs plain.2 plain.1, ih]
  | @pair c cs rest ih => rw [escapeQuotes, ih]

def trailingBackslashes (t : Text) : Nat := (t.reverse.takeWhile (· == '\\')).length

/-- The text ends with a backslash that does not belong to the one before it. -/
def EndsBare (t : Text) : Prop := t.trailingBackslashes % 2 = 1

instance (t : Text) : Decidable t.EndsBare := inferInstanceAs (Decidable (_ = _))

theorem trailingBackslashes_append (s t : Text) :
    trailingBackslashes (s ++ t) =
      if trailingBackslashes t = t.length then t.length + trailingBackslashes s else trailingBackslashes t := by
  rw [trailingBackslashes, List.reverse_append, List.takeWhile_append, List.length_reverse]
  split <;> simp_all [trailingBackslashes]

theorem endsBare_char (c : Char) (cs : Text) (backslash : c ≠ '\\') : EndsBare (c :: cs) ↔ EndsBare cs := by
  have single : trailingBackslashes [c] = 0 := by simp [trailingBackslashes, backslash]
  rw [EndsBare, ← List.singleton_append, trailingBackslashes_append, single]
  unfold EndsBare
  split <;> simp_all

theorem endsBare_pair (c : Char) (cs : Text) : EndsBare ('\\' :: c :: cs) ↔ EndsBare cs := by
  have even : trailingBackslashes ['\\', c] % 2 = 0 := by
    by_cases backslash : c = '\\'
    · subst backslash
      decide
    · simp [trailingBackslashes, backslash]
  have split : '\\' :: c :: cs = ['\\', c] ++ cs := rfl
  rw [EndsBare, split, trailingBackslashes_append, EndsBare]
  split <;> omega

theorem endsBare_digits (ds x : Text) (hex : ∀ d ∈ ds, isHexDigit d = true) : EndsBare (ds ++ x) ↔ EndsBare x := by
  induction ds with
  | nil => rfl
  | cons d ds ih =>
    rw [List.forall_mem_cons] at hex
    rw [List.cons_append, endsBare_char d _ (ne_of_isHexDigit d _ hex.1 (by decide)), ih hex.2]

end Text

namespace Scanner

theorem readPiece_guarded (line : Int) (t rest : Text) (guarded : t.Guarded) (newline : '\n' ∉ t) (dollar : '$' ∉ t) :
    readPiece .double line (t ++ rest) = (readPiece .double line rest).push t := by
  induction guarded with
  | nil => rfl
  | @char c cs plain guarded ih =>
    simp only [List.mem_cons, List.not_mem_nil, or_false, not_or] at plain newline dollar
    rw [List.cons_append, readPiece_char .double line c _ (Ne.symm newline.1) plain.1 plain.2
      fun h => absurd h.symm dollar.1, ih newline.2 dollar.2]
    rfl
  | @pair c cs guarded ih =>
    simp only [List.mem_cons, not_or] at newline dollar
    rw [List.cons_append, List.cons_append, readPiece_cons, if_neg (by decide), if_neg (by decide), if_pos rfl]
    dsimp only
    rw [if_neg (Ne.symm dollar.2.1), if_neg (Ne.symm newline.2.1), ih newline.2.2 dollar.2.2]
    rfl

end Scanner

namespace Cell

theorem digits_of_escapeQuotes (t ds x : Text) (hex : ∀ d ∈ ds, isHexDigit d = true) (h : escapeQuotes t = ds ++ x) :
    ∃ y, t = ds ++ y ∧ escapeQuotes y = x := by
  induction ds generalizing t with
  | nil => exact ⟨t, rfl, h⟩
  | cons d ds ih =>
    rw [List.forall_mem_cons] at hex
    have first : d ∈ (escapeQuotes t ++ []).head? := by simp [h]
    rw [head?_escapeQuotes_append t [] d hex.1, List.append_nil] at first
    obtain ⟨cs, rfl⟩ := List.head?_eq_some_iff.mp first
    rw [escapeQuotes_plain d cs (ne_of_isHexDigit d _ hex.1 (by decide)) (ne_of_isHexDigit d _ hex.1 (by decide))] at h
    obtain ⟨y, rfl, hy⟩ := ih cs hex.2 (List.cons.inj h).2
    exact ⟨y, rfl, hy⟩

theorem escape_of_escapeQuotes (c : Char) (cs : Text) (front : List Cell) (n : Nat)
    (h : escape (c :: escapeQuotes cs) = .ok (front, n)) :
    ∃ e y, cs = e ++ y ∧ (∀ d ∈ e, isHexDigit d = true) ∧ n = (c :: e).length ∧
      escape (c :: e ++ y) = .ok (front, n) := by
  obtain ⟨c', e, x, split, rfl, alone, hex, done⟩ := escape_split _ front n h
  obtain ⟨rfl, tail⟩ := List.cons.inj split
  obtain ⟨y, rfl, rfl⟩ := digits_of_escapeQuotes cs e x hex tail
  refine ⟨e, y, rfl, hex, rfl, escape_append c e y front alone fun d hd => ?_⟩
  rw [Bool.eq_false_iff]
  intro takes
  have same := head?_escapeQuotes_append y [] d (isHexDigit_of_escapeTakes _ d takes)
  rw [List.append_nil, List.append_nil] at same
  rw [done d (same.mpr hd)] at takes
  cases takes

/-- What can be decoded with its quotes escaped could be decoded before, unless it ends with a backslash. -/
theorem ofQuoted_of_escapeQuotes (t : Text) (cells : List Cell) (paired : ¬ t.EndsBare)
    (h : ofQuoted (escapeQuotes t) = .ok cells) : ∃ own, ofQuoted t = .ok own := by
  fun_induction ofQuoted t generalizing cells with
  | case1 => exact ⟨[], rfl⟩
  | case2 c cs forbidden =>
    have other (d : Char) (hd : isForbidden d = false) : c ≠ d := by
      rintro rfl
      rw [forbidden] at hd
      cases hd
    rw [escapeQuotes_plain c cs (other _ (by decide)) (other _ (by decide)), ofQuoted, if_pos forbidden] at h
    cases h
  | case3 cs allowed ih =>
    cases cs with
    | nil => exact absurd (by decide) paired
    | cons c cs =>
      rw [escapeQuotes] at h
      obtain ⟨front, n, back, escaped, hback, rfl⟩ := ofQuoted_backslash _ cells h
      -- the digits of a number are no quotes, so the escape takes the same text
      obtain ⟨e, y, rfl, hex, rfl, escaped⟩ := escape_of_escapeQuotes c cs front n escaped
      rw [escapeQuotes_digits e y hex, ← List.cons_append, List.drop_left] at hback
      have ih := ih (c :: e).length back
      rw [← List.cons_append, List.drop_left] at ih
      rw [Text.endsBare_pair, Text.endsBare_digits e y hex] at paired
      obtain ⟨own, hown⟩ := ih paired hback
      refine ⟨front ++ own, ?_⟩
      rw [← List.cons_append, escaped]
      show (ofQuoted _ >>= _) = _
      rw [List.drop_left, hown]
      rfl
  | case4 c cs allowed backslash ih =>
    have legal : isForbidden c = false := by simpa using allowed
    obtain ⟨quoted, -, step⟩ := ofQuoted_quoted_char c cs legal backslash
    have step := step []
    rw [List.append_nil, List.append_nil, h] at step
    obtain ⟨back, hback, -⟩ := (Except.map_eq_ok_iff _ _ _).mp step.symm
    obtain ⟨own, hown⟩ := ih back (mt (Text.endsBare_char c cs backslash).mpr paired) hback
    rw [hown]
    exact ⟨char c :: own, rfl⟩

end Cell

namespace Compiler

theorem compileString_escapeQuotes_iff (k : Compiler) (p : Protocol) (v : Text) (line : Int) (quote : Option Quote)
    (is : List Instruction) (paired : ¬ v.EndsBare) :
    (k.compileString p .plain [⟨.string, escapeQuotes v, line, quote⟩]).result = .ok is ↔
      (k.compileString p .plain [⟨.string, v, line, quote⟩]).result = .ok is := by
  have forward (cells : List Cell) (h : Cell.ofQuoted v = .ok cells) :
      ∃ quoted, Cell.ofQuoted (escapeQuotes v) = .ok quoted ∧ Cell.toInstructions quoted = Cell.toInstructions cells := by
    obtain ⟨quoted, same, eq⟩ := Cell.ofQuoted_escapeQuotes_append v [] cells h (by simp)
    rw [List.append_nil, Cell.ofQuoted_nil] at eq
    refine ⟨quoted, by simpa [Except.map] using eq, ?_⟩
    rw [Cell.toInstructions, same, Cell.toInstructions]
  rw [compileString_single_iff _ _ _ _ rfl, compileString_single_iff _ _ _ _ rfl]
  constructor
  · rintro ⟨quoted, hquoted, rfl⟩
    obtain ⟨cells, hcells⟩ := Cell.ofQuoted_of_escapeQuotes v quoted paired hquoted
    obtain ⟨quoted', hquoted', same⟩ := forward cells hcells
    cases hquoted.symm.trans hquoted'
    exact ⟨cells, hcells, same⟩
  · rintro ⟨cells, hcells, rfl⟩
    obtain ⟨quoted, hquoted, same⟩ := forward cells hcells
    exact ⟨quoted, hquoted, same.symm⟩

end Compiler

/-- Escaping the quotes of a text changes nothing when it is done again. Between double quotes the result is read as one
string, as long as it has no line ends and no dollar signs, and it stands for what the text stands for, as long as that
does not end with a backslash of its own. -/
theorem escapeQuotes_agrees (v : Text) :
    escapeQuotes (escapeQuotes v) = escapeQuotes v ∧
    ('\n' ∉ v → '$' ∉ v → tokenize ('"' :: escapeQuotes v ++ ['"']) =
      .ok [⟨.string, escapeQuotes v, 1, some .double⟩, ⟨.eof, [], 1, none⟩]) ∧
    (¬ v.EndsBare → ∀ (k : Compiler) (p : Protocol) (line : Int) (quote : Option Quote) (is : List Instruction),
      (k.compileString p .plain [⟨.string, escapeQuotes v, line, quote⟩]).result = .ok is ↔
        (k.compileString p .plain [⟨.string, v, line, quote⟩]).result = .ok is) := by
  have guarded := Text.guarded_escapeQuotes v
  refine ⟨guarded.escapeQuotes_eq, fun newline dollar => ?_, fun paired k p line quote is => ?_⟩
  · have without (c : Char) (backslash : c ≠ '\\') (h : c ∉ v) : c ∉ escapeQuotes v := by
      intro mem
      have := escapeQuotes_subset v mem
      simp [backslash, h] at this
    have piece : Scanner.readPiece .double 1 (escapeQuotes v ++ ['"']) = ⟨escapeQuotes v, .closed, [], 1⟩ := by
      rw [Scanner.readPiece_guarded 1 _ ['"'] guarded (without _ (by decide) newline) (without _ (by decide) dollar)]
      simp [Scanner.readPiece, Scanner.StringPiece.push, Quote.char]
    exact tokenize_closed _ _ piece
  · exact k.compileString_escapeQuotes_iff p v line quote is paired

/-- Quotes without a backslash, behind an escaped one, behind one of their own, and behind a number. -/
theorem escapeQuotes_agrees_run :
    let v := "a\"\\\\\"\\\"\\x4\"".toList
    let w := "a\\\"\\\\\\\"\\\"\\x4\\\"".toList
    escapeQuotes v = w ∧ escapeQuotes w = w ∧
      tokenize ('"' :: w ++ ['"']) = .ok [⟨.string, w, 1, some .double⟩, ⟨.eof, [], 1, none⟩] ∧
      (Compiler.compileString {} {} .plain [⟨.string, w, 1, some .double⟩]).result =
        .ok [.literal [0x61, 0x22, 0x5C, 0x22, 0x22, 0x04, 0x22]] := by
  intro v w
  obtain ⟨again, tokens, same⟩ := escapeQuotes_agrees v
  have compiled : (Compiler.compileString {} {} .plain [⟨.string, v, 1, some .double⟩]).result =
      .ok [.literal [0x61, 0x22, 0x5C, 0x22, 0x22, 0x04, 0x22]] := by
    decide +kernel
  exact ⟨rfl, again, tokens (by decide) (by decide), (same (by decide) {} {} 1 (some .double) _).mpr compiled⟩

end DeviceProtocol
