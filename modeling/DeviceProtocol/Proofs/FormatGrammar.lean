import DeviceProtocol.Proofs.JoinedStrings
import DeviceProtocol.Proofs.OrderlyReading
set_option autoImplicit false

/-!
The grammar of the standard formats. A specifier is written as a percent sign, flags, a width, a point with a precision, a
conversion character, and what that character asks for. Zero is a flag as well as a digit: a width does not start with
it, so every text can be cut in one way only.
-/
namespace DeviceProtocol

theorem Text.span_until (p : Char → Bool) (front back : Text) (inside : ∀ c ∈ front, p c = true)
    (stop : ∀ c ∈ back.head?, p c = false) : (front ++ back).takeWhile p = front ∧ (front ++ back).dropWhile p = back := by
  rw [List.takeWhile_append_of_pos inside, List.dropWhile_append_of_pos inside]
  cases back with
  | nil => simp
  | cons c back => simp [stop c rfl]

theorem Text.head?_dropWhile (p : Char → Bool) (t : Text) : ∀ c ∈ (t.dropWhile p).head?, p c = false := by
  intro c hc
  have := List.head?_dropWhile_not p t
  rw [Option.mem_def.mp hc] at this
  simpa using this

theorem Text.cutAt?_eq_some_iff (sep : Char) (t front rest : Text) :
    cutAt? sep t = some (front, rest) ↔ t = front ++ sep :: rest ∧ sep ∉ front := by
  constructor
  · intro h
    refine ⟨cutAt?_eq_some sep t front rest h, ?_⟩
    unfold cutAt? at h
    split at h
    · cases h
    · cases h
      intro mem
      simpa using List.mem_takeWhile_imp mem
  · rintro ⟨rfl, outside⟩
    have inside : ∀ c ∈ front, (c != sep) = true := by
      intro c hc
      rw [bne_iff_ne]
      rintro rfl
      exact outside hc
    obtain ⟨taken, dropped⟩ := span_until (· != sep) front (sep :: rest) inside (by simp)
    rw [cutAt?, taken, dropped]

namespace Format

theorem isDigit_of_isDecimalDigit (c : Char) (h : isDecimalDigit c = true) :
    isDigit c = true ∧ decimalValue? c = some (hexDigitValue c) ∧ (c ≠ '0' → 1 ≤ hexDigitValue c) := by
  have ascii : c.toNat < 0x80 := ascii_of_isHexDigit c (by simp [isHexDigit, h])
  exact forall_ascii
    (fun c => isDecimalDigit c = true →
      isDigit c = true ∧ decimalValue? c = some (hexDigitValue c) ∧ (c ≠ '0' → 1 ≤ hexDigitValue c))
    (by decide +kernel) c ascii h

theorem numberValue_decimal (ds : Text) (digits : ∀ d ∈ ds, isDecimalDigit d = true) :
    numberValue ds =
      if maxDigits < ds.length then .error (.crash (.longNumber ds)) else .ok (digitsValue 10 ds) := by
  have run (acc : Nat) : ds.foldlM (fun acc c => (decimalValue? c).map (10 * acc + ·)) acc =
      some (ds.foldl (fun acc d => 10 * acc + hexDigitValue d) acc) := by
    induction ds generalizing acc with
    | nil => rfl
    | cons d ds ih =>
      rw [List.forall_mem_cons] at digits
      rw [List.foldlM_cons, (isDigit_of_isDecimalDigit d digits.1).2.1]
      exact ih digits.2 _
  rw [numberValue, requireFewDigits, decimal?, run 0]
  split
  · rfl
  · rfl

theorem le_foldl_digits (ds : Text) (acc : Nat) : acc ≤ ds.foldl (fun acc d => 10 * acc + hexDigitValue d) acc := by
  induction ds generalizing acc with
  | nil => exact Nat.le_refl acc
  | cons d ds ih =>
    have next := ih (10 * acc + hexDigitValue d)
    rw [List.foldl_cons]
    omega

theorem length_le_of_digitsValue (ds : Text) (digits : ∀ d ∈ ds, isDecimalDigit d = true) (first : ds.head? ≠ some '0')
    (small : digitsValue 10 ds ≤ limit) : ds.length ≤ 5 := by
  -- without leading zeros, five digits are enough for a width
  match ds with
  | [] | [_] | [_, _] | [_, _, _] | [_, _, _, _] | [_, _, _, _, _] => simp
  | c :: d₁ :: d₂ :: d₃ :: d₄ :: d₅ :: ds =>
    have nonzero : c ≠ '0' := fun zero => first (by rw [zero]; rfl)
    have positive := (isDigit_of_isDecimalDigit c (digits c List.mem_cons_self)).2.2 nonzero
    rw [digitsValue] at small
    simp only [List.foldl_cons] at small
    have le := Nat.le_trans (le_foldl_digits ds _) small
    simp only [limit] at le
    omega

theorem isFlag_eq_false (c : Char) (h : isDecimalDigit c = true ∧ c ≠ '0' ∨ c = '.' ∨ (type? c).isSome = true) :
    isFlag c = false := by
  have table : ['-', '+', ' ', '#', '0', '*', '?', '=', '!'].all (fun c => (!isDecimalDigit c || c == '0') && c != '.' &&
      (type? c).isNone) = true := by
    decide
  cases hf : isFlag c with
  | false => rfl
  | true =>
    have mem : c ∈ ['-', '+', ' ', '#', '0', '*', '?', '=', '!'] := by
      unfold isFlag flag? at hf
      split at hf <;> first | decide | cases hf
    have row := List.all_eq_true.mp table c mem
    simp only [Bool.and_eq_true, Bool.or_eq_true, Bool.not_eq_true', beq_iff_eq, bne_iff_ne, Option.isNone_iff_eq_none] at row
    obtain ⟨⟨digit, point⟩, type⟩ := row
    rcases h with ⟨hd, zero⟩ | rfl | ht
    · simp [hd, zero] at digit
    · exact absurd rfl point
    · simp [type] at ht

theorem type?_other (c : Char) (t : FormatType) (h : type? c = some t) : isDigit c = false ∧ c ≠ '.' := by
  unfold type? at h
  split at h <;> first | exact ⟨by decide, by decide⟩ | cases h

theorem flags_meet_iff (cs : Text) (mask : Nat) :
    (flags cs).bits &&& mask ≠ 0 ↔ ∃ c ∈ cs, ∃ f ∈ flag? c, f.bits &&& mask ≠ 0 := by
  have run (fs : List Flags) (acc : Flags) : (fs.foldl Flags.union acc).bits &&& mask ≠ 0 ↔
      acc.bits &&& mask ≠ 0 ∨ ∃ f ∈ fs, f.bits &&& mask ≠ 0 := by
    induction fs generalizing acc with
    | nil => simp
    | cons f fs ih =>
      rw [List.foldl_cons, ih, Flags.union, Nat.and_or_distrib_right, ne_eq, Nat.or_eq_zero_iff, not_and_or, or_assoc,
        List.exists_mem_cons_iff]
  have none : ¬ Flags.empty.bits &&& mask ≠ 0 := by simp [Flags.empty]
  rw [flags, run, or_iff_right none]
  constructor
  · rintro ⟨f, hf, meets⟩
    obtain ⟨c, hc, hcf⟩ := List.mem_filterMap.mp hf
    exact ⟨c, hc, f, hcf, meets⟩
  · rintro ⟨c, hc, f, hcf, meets⟩
    exact ⟨f, List.mem_filterMap.mpr ⟨c, hc, hcf⟩, meets⟩

theorem skips_flags_iff (cs : Text) : (flags cs).skips = true ↔ '*' ∈ cs := by
  have star (c : Char) (f : Flags) (h : flag? c = some f) (skips : f.bits &&& Flags.skip.bits ≠ 0) : c = '*' := by
    unfold flag? at h
    split at h <;> cases h <;> first | rfl | exact absurd skips (by decide)
  rw [Flags.skips, bne_iff_ne, flags_meet_iff]
  constructor
  · rintro ⟨c, hc, f, hf, skips⟩
    rwa [← star c f hf skips]
  · exact fun hc => ⟨'*', hc, .skip, rfl, by decide⟩

/-- The texts that belong to a conversion character, each with the info it gives. A caret always inverts a character set;
the character behind it, or else the first one, is a member of the set even if it is a bracket. -/
inductive InfoText : Char → Text → Bytes → Prop
  | none {c : Char} (plain : c ∉ ['[', '\x7b', '<']) : InfoText c [] []
  | charSet {caret others : Text} {first : Char} (inverted : caret = ['^'] ∨ caret = [] ∧ first ≠ '^')
      (closed : ']' ∉ others) :
      InfoText '[' (caret ++ first :: others ++ [']']) (Wire.zeroTerminated (caret ++ first :: others))
  | choices {body : Text} (closed : '\x7d' ∉ body) (spelled : ∃ c ∈ body, c ≠ '|') :
      InfoText '\x7b' (body ++ ['\x7d'])
        (Wire.zeroTerminated (body.map fun c => if c = '|' then Char.ofNat 0 else c))
  | checksum {name : Text} (closed : '>' ∉ name) (known : (Text.lower name).str ∈ checksums) :
      InfoText '<' (name ++ ['>']) (Wire.zeroTerminated (Text.lower name))

/-- A format specifier in the parts of its grammar. -/
structure Specifier where
  flags : Text
  width : Text
  /-- The digits behind the point, if there is one. -/
  precision : Option Text
  conversion : Char
  type : FormatType
  infoText : Text
  info : Bytes
  flags_known : ∀ c ∈ flags, isFlag c = true
  width_digits : ∀ c ∈ width, isDecimalDigit c = true
  width_first : width.head? ≠ some '0'
  width_small : digitsValue 10 width ≤ limit
  precision_digits : ∀ ds ∈ precision, ∀ c ∈ ds, isDecimalDigit c = true
  precision_small : ∀ ds ∈ precision, digitsValue 10 ds ≤ limit
  conversion_known : type? conversion = some type
  info_written : InfoText conversion infoText info

namespace Specifier

def point (s : Specifier) : Text := s.precision.elim [] ('.' :: ·)

def text (s : Specifier) : Text :=
  '%' :: s.flags ++ s.width ++ s.point ++ s.conversion :: s.infoText

def meaning (s : Specifier) : Conversion where
  descriptor := {
    type := s.type
    conversion := s.conversion
    flags := Format.flags s.flags
    width := digitsValue 10 s.width
    precision := s.precision.elim (-1) fun ds => (digitsValue 10 ds : Int)
    infoLength := s.info.length }
  consumed := s.text.length
  info := s.info

/-- Only input can be skipped. -/
def Admitted (s : Specifier) (mode : Mode) : Prop := '*' ∈ s.flags → mode = .scan

/-- The precision has no more digits than are converted, leading zeros included. -/
def Short (s : Specifier) : Prop := ∀ ds ∈ s.precision, ds.length ≤ maxDigits

end Specifier

theorem charSet_cons_iff (source caret cs after : Text) (c : Char) (bs : Bytes)
    (inverted : caret = ['^'] ∨ caret = [] ∧ c ≠ '^') :
    charSet source (caret ++ c :: cs) = .ok (bs, after) ↔
      ∃ others, cs = others ++ ']' :: after ∧ ']' ∉ others ∧ bs = Wire.zeroTerminated (caret ++ c :: others) := by
  have cut (front tail : Text) (h : charSet source (caret ++ c :: cs) =
      (Text.cutAt? ']' tail).elim (fault (.charSetUnclosed source))
        fun cut => .ok (Wire.zeroTerminated (front ++ cut.1), cut.2)) :
      charSet source (caret ++ c :: cs) = .ok (bs, after) ↔
        ∃ body, tail = body ++ ']' :: after ∧ ']' ∉ body ∧ bs = Wire.zeroTerminated (front ++ body) := by
    rw [h]
    simp only [← and_assoc, ← Text.cutAt?_eq_some_iff]
    rcases Text.cutAt? ']' tail with _ | ⟨body, rest⟩
    · simp [fault]
    · simp [eq_comm, and_comm]
  -- a bracket in the first place is a member, so the search for the end starts behind it
  by_cases bracket : c = ']'
  · subst bracket
    rw [cut (caret ++ [']']) cs]
    · simp
    · rcases inverted with rfl | ⟨rfl, -⟩
      · rw [List.cons_append, List.nil_append, charSet]
        cases Text.cutAt? ']' cs <;> rfl
      · rw [List.nil_append, charSet]
        cases Text.cutAt? ']' cs <;> rfl
  · rw [cut caret (c :: cs)]
    · constructor
      · rintro ⟨body, h, closed, rfl⟩
        cases body with
        | nil => exact absurd (List.cons.inj h).1 bracket
        | cons d others =>
          cases h
          exact ⟨others, rfl, fun mem => closed (List.mem_cons_of_mem _ mem), rfl⟩
      · rintro ⟨others, rfl, closed, rfl⟩
        exact ⟨c :: others, rfl, by simp [Ne.symm bracket, closed], rfl⟩
    · rcases inverted with rfl | ⟨rfl, other⟩
      · simp [charSet, bracket]
        cases Text.cutAt? ']' (c :: cs) <;> rfl
      · simp [charSet, bracket, other]
        cases Text.cutAt? ']' (c :: cs) <;> rfl

theorem charSet_eq_ok_iff (source rest after : Text) (bs : Bytes) :
    charSet source rest = .ok (bs, after) ↔ ∃ text, rest = text ++ after ∧ InfoText '[' text bs := by
  constructor
  · intro h
    have start : ∃ caret c cs, rest = caret ++ c :: cs ∧ (caret = ['^'] ∨ caret = [] ∧ c ≠ '^') := by
      cases rest with
      | nil => cases h
      | cons c cs =>
        by_cases caret : c = '^'
        · subst caret
          cases cs with
          | nil => cases h
          | cons d ds => exact ⟨['^'], d, ds, rfl, .inl rfl⟩
        · exact ⟨[], c, cs, rfl, .inr ⟨rfl, caret⟩⟩
    obtain ⟨caret, c, cs, rfl, inverted⟩ := start
    obtain ⟨others, rfl, closed, rfl⟩ := (charSet_cons_iff source caret cs after c bs inverted).mp h
    exact ⟨caret ++ c :: others ++ [']'], by simp, .charSet inverted closed⟩
  · rintro ⟨text, rfl, written⟩
    cases written with
    | none plain => exact absurd (by decide) plain
    | @charSet caret others first inverted closed =>
      have step := charSet_cons_iff source caret (others ++ ']' :: after) after first
        (Wire.zeroTerminated (caret ++ first :: others)) inverted
      simpa using step.mpr ⟨others, rfl, closed, rfl⟩

theorem choices_eq_ok_iff (source rest after : Text) (bs : Bytes) :
    choices source rest = .ok (bs, after) ↔ ∃ text, rest = text ++ after ∧ InfoText '\x7b' text bs := by
  unfold choices
  constructor
  · intro h
    split at h
    · next body tail cut =>
      obtain ⟨rfl, closed⟩ := (Text.cutAt?_eq_some_iff _ _ _ _).mp cut
      split at h
      · cases h
      · next spelled =>
        cases h
        refine ⟨body ++ ['\x7d'], by simp, .choices closed ?_⟩
        simpa using spelled
    · cases h
  · rintro ⟨text, rfl, written⟩
    cases written with
    | none plain => exact absurd (by decide) plain
    | @choices body closed spelled =>
      rw [List.append_assoc, List.singleton_append, (Text.cutAt?_eq_some_iff _ _ body after).mpr ⟨rfl, closed⟩]
      refine if_neg ?_
      simpa using spelled

theorem checksum_eq_ok_iff (source rest after : Text) (bs : Bytes) :
    checksum source rest = .ok (bs, after) ↔ ∃ text, rest = text ++ after ∧ InfoText '<' text bs := by
  unfold checksum
  constructor
  · intro h
    split at h
    · next body tail cut =>
      obtain ⟨rfl, closed⟩ := (Text.cutAt?_eq_some_iff _ _ _ _).mp cut
      dsimp only at h
      split at h
      · next known =>
        cases h
        exact ⟨body ++ ['>'], by simp, .checksum closed (by simpa using known)⟩
      · cases h
    · cases h
  · rintro ⟨text, rfl, written⟩
    cases written with
    | none plain => exact absurd (by decide) plain
    | @checksum name closed known =>
      rw [List.append_assoc, List.singleton_append, (Text.cutAt?_eq_some_iff _ _ name after).mpr ⟨rfl, closed⟩]
      exact if_pos (by simpa using known)

theorem info_eq_ok_iff (conversion : Char) (source rest after : Text) (bs : Bytes) :
    info conversion source rest = .ok (bs, after) ↔ ∃ text, rest = text ++ after ∧ InfoText conversion text bs := by
  unfold info
  split
  · exact charSet_eq_ok_iff source rest after bs
  · exact choices_eq_ok_iff source rest after bs
  · exact checksum_eq_ok_iff source rest after bs
  · next set enum checksum =>
    constructor
    · intro h
      cases h
      exact ⟨[], rfl, .none (by simpa using ⟨set, enum, checksum⟩)⟩
    · rintro ⟨text, rfl, written⟩
      cases written with
      | none plain => rfl
      | charSet inverted closed => exact absurd rfl set
      | choices closed spelled => exact absurd rfl enum
      | checksum closed known => exact absurd rfl checksum

theorem precision_point (ds : Text) (c : Char) (rest : Text) (digits : ∀ d ∈ ds, isDecimalDigit d = true)
    (other : isDigit c = false) :
    Format.precision ('.' :: ds ++ c :: rest) =
      if maxDigits < ds.length then .error (.crash (.longNumber ds)) else .ok ((digitsValue 10 ds : Int), c :: rest) := by
  have inside : ∀ d ∈ ds, isDigit d = true := fun d hd => (isDigit_of_isDecimalDigit d (digits d hd)).1
  obtain ⟨taken, dropped⟩ := Text.span_until isDigit ds (c :: rest) inside (by simp [other])
  rw [List.cons_append, Format.precision, taken, dropped, numberValue_decimal ds digits]
  split
  · rfl
  · rfl

theorem precision_none (c : Char) (rest : Text) (point : c ≠ '.') :
    Format.precision (c :: rest) = .ok (-1, c :: rest) := by
  simp [Format.precision, point]
  rfl

theorem isDecimalDigit_of_mem_takeWhile (cs : Text) (ascii : AsciiDigits cs) :
    ∀ d ∈ cs.takeWhile isDigit, isDecimalDigit d = true := fun d hd =>
  ((ascii d (List.takeWhile_subset _ hd)).decimal (List.mem_takeWhile_imp hd)).1

theorem precision_cases (cs rest : Text) (n : Int) (ascii : AsciiDigits cs) (h : precision cs = .ok (n, rest)) :
    ∃ digits : Option Text, cs = digits.elim [] ('.' :: ·) ++ rest ∧
      (∀ ds ∈ digits, (∀ d ∈ ds, isDecimalDigit d = true) ∧ ds.length ≤ maxDigits) ∧
      n = digits.elim (-1) fun ds => (digitsValue 10 ds : Int) := by
  unfold precision at h
  split at h
  · next cs =>
    have digits := isDecimalDigit_of_mem_takeWhile cs ((asciiDigits_cons ..).mp ascii).2
    rw [numberValue_decimal _ digits] at h
    split at h
    · cases h
    · next few =>
      cases h
      refine ⟨some (cs.takeWhile isDigit), ?_, ?_, rfl⟩
      · simp [List.takeWhile_append_dropWhile]
      · rintro ds ⟨⟩
        exact ⟨digits, Nat.le_of_not_lt few⟩
  · cases h
    exact ⟨none, rfl, by simp, rfl⟩

namespace Specifier

theorem head?_point (s : Specifier) (rest : Text) :
    ∀ c ∈ (s.point ++ s.conversion :: rest).head?, c = '.' ∨ c = s.conversion := by
  unfold point
  cases s.precision <;> simp [eq_comm]

theorem head?_width (s : Specifier) (rest : Text) :
    ∀ c ∈ (s.width ++ (s.point ++ s.conversion :: rest)).head?, isFlag c = false := by
  intro c hc
  apply isFlag_eq_false
  cases hw : s.width with
  | nil =>
    rw [hw] at hc
    rcases s.head?_point rest c hc with rfl | rfl
    · exact .inr (.inl rfl)
    · simp [s.conversion_known]
  | cons d ds =>
    have digit := s.width_digits
    have first := s.width_first
    rw [hw] at hc digit first
    obtain rfl : d = c := by simpa using hc
    exact .inl ⟨digit d List.mem_cons_self, by simpa using first⟩

def body (s : Specifier) (rest : Text) : Text :=
  s.flags ++ (s.width ++ (s.point ++ s.conversion :: (s.infoText ++ rest)))

theorem text_append (s : Specifier) (rest : Text) : s.text ++ rest = '%' :: s.body rest := by
  simp [text, body]

theorem body_spans (s : Specifier) (rest : Text) :
    (s.body rest).takeWhile isFlag = s.flags ∧
      numberValue (((s.body rest).dropWhile isFlag).takeWhile isDigit) = .ok (digitsValue 10 s.width) ∧
      ((s.body rest).dropWhile isFlag).dropWhile isDigit = s.point ++ s.conversion :: (s.infoText ++ rest) := by
  have noDigit : ∀ c ∈ (s.point ++ s.conversion :: (s.infoText ++ rest)).head?, isDigit c = false := by
    intro c hc
    rcases s.head?_point (s.infoText ++ rest) c hc with rfl | rfl
    · decide
    · exact (type?_other s.conversion s.type s.conversion_known).1
  have digits : ∀ d ∈ s.width, isDigit d = true := fun d hd => (isDigit_of_isDecimalDigit d (s.width_digits d hd)).1
  obtain ⟨flags, afterFlags⟩ := Text.span_until isFlag s.flags _ s.flags_known (s.head?_width (s.infoText ++ rest))
  obtain ⟨width, afterWidth⟩ := Text.span_until isDigit s.width _ digits noDigit
  have short := length_le_of_digitsValue s.width s.width_digits s.width_first s.width_small
  have few : ¬ maxDigits < s.width.length := by
    simp only [maxDigits]
    omega
  rw [body, afterFlags, width, numberValue_decimal _ s.width_digits, if_neg few]
  exact ⟨flags, rfl, afterWidth⟩

theorem precision_read (s : Specifier) (short : s.Short) (rest : Text) :
    Format.precision (s.point ++ s.conversion :: rest) =
      .ok (s.precision.elim (-1) fun ds => (digitsValue 10 ds : Int), s.conversion :: rest) := by
  obtain ⟨digit, point⟩ := type?_other s.conversion s.type s.conversion_known
  rw [Specifier.point]
  cases hp : s.precision with
  | none => exact precision_none s.conversion rest point
  | some ds =>
    have read := precision_point ds s.conversion rest (s.precision_digits ds hp) digit
    exact read.trans (if_neg (Nat.not_lt_of_le (short ds hp)))

end Specifier

theorem standard_text (s : Specifier) (mode : Mode) (admitted : s.Admitted mode) (short : s.Short) (rest : Text) :
    standard (s.text ++ rest) mode = .ok s.meaning := by
  obtain ⟨flags, width, behind⟩ := s.body_spans rest
  have precise : (s.precision.elim (-1) fun ds => (digitsValue 10 ds : Int)) ≤ limit := by
    cases hp : s.precision with
    | none => decide
    | some ds => exact Int.ofNat_le.mpr (s.precision_small ds hp)
  have read := standard_of_parts (s.body rest) (s.infoText ++ rest) rest mode (digitsValue 10 s.width) _ s.conversion
    s.type s.info width (by rw [behind, s.precision_read short]) s.width_small precise s.conversion_known
    (by rw [flags, skips_flags_iff]; exact admitted) ((info_eq_ok_iff _ _ _ _ _).mpr ⟨s.infoText, rfl, s.info_written⟩)
  rw [flags, ← s.text_append] at read
  rw [read, Specifier.meaning]
  simp

theorem standard_long (s : Specifier) (mode : Mode) (ds rest : Text) (precision : s.precision = some ds)
    (many : maxDigits < ds.length) : standard (s.text ++ rest) mode = .error (.crash (.longNumber ds)) := by
  obtain ⟨-, width, behind⟩ := s.body_spans rest
  have read := precision_point ds s.conversion (s.infoText ++ rest) (s.precision_digits ds precision)
    (type?_other s.conversion s.type s.conversion_known).1
  rw [if_pos many] at read
  rw [Specifier.point, precision, Option.elim_some] at behind
  rw [s.text_append]
  simp only [standard, width, behind, read, bind, Except.bind]

theorem exists_specifier (source : Text) (mode : Mode) (c : Conversion) (ascii : AsciiDigits source)
    (h : standard source mode = .ok c) :
    ∃ (s : Specifier) (rest : Text), source = s.text ++ rest ∧ s.Admitted mode ∧ s.Short := by
  obtain ⟨cs, width, precision, conversion, type, tail, after, rfl, hw, hp, wide, precise, ht, hs, hi, -, -⟩ :=
    standard_cases source mode c h
  have behind : AsciiDigits (cs.dropWhile isFlag) := ((asciiDigits_cons ..).mp ascii).2.subset (List.dropWhile_subset _)
  have digits := isDecimalDigit_of_mem_takeWhile _ behind
  rw [numberValue_decimal _ digits] at hw
  split at hw <;> cases hw
  obtain ⟨point, cut, pointDigits, rfl⟩ := precision_cases _ _ _ (behind.subset (List.dropWhile_subset _)) hp
  obtain ⟨text, rfl, written⟩ := (info_eq_ok_iff _ _ _ _ _).mp hi
  have first : ((cs.dropWhile isFlag).takeWhile isDigit).head? ≠ some '0' := by
    intro zero
    rw [List.head?_takeWhile, Option.filter_eq_some_iff] at zero
    exact absurd (Text.head?_dropWhile isFlag cs '0' zero.1) (by decide)
  let s : Specifier := {
    flags := cs.takeWhile isFlag
    width := (cs.dropWhile isFlag).takeWhile isDigit
    precision := point
    conversion := conversion
    type := type
    infoText := text
    info := c.info
    flags_known := fun c hc => List.mem_takeWhile_imp hc
    width_digits := digits
    width_first := first
    width_small := wide
    precision_digits := fun ds mem => (pointDigits ds mem).1
    precision_small := by
      rintro ds ⟨⟩
      exact Int.ofNat_le.mp precise
    conversion_known := ht
    info_written := written }
  refine ⟨s, after, ?_, fun star => hs ((skips_flags_iff _).mpr star), fun ds mem => (pointDigits ds mem).2⟩
  have whole : cs = s.flags ++ (s.width ++ (s.point ++ s.conversion :: (s.infoText ++ after))) := by
    calc cs
      _ = s.flags ++ cs.dropWhile isFlag := List.takeWhile_append_dropWhile.symm
      _ = s.flags ++ (s.width ++ (cs.dropWhile isFlag).dropWhile isDigit) :=
        congrArg (s.flags ++ ·) List.takeWhile_append_dropWhile.symm
      _ = _ := by rw [cut]; rfl
  rw [Specifier.text, whole]
  simp

/-- Among the texts without digits beyond ASCII, those that start with a specifier are the ones in which a format is found,
and whatever stands behind a specifier, the format that is found is what it stands for. A specifier whose precision has too
many digits is an exception: such a number is not converted, even if it is small. -/
theorem standard_grammar (source : Text) (mode : Mode) (ascii : AsciiDigits source) :
    ((∃ c, standard source mode = .ok c) ↔
      ∃ (s : Specifier) (rest : Text), source = s.text ++ rest ∧ s.Admitted mode ∧ s.Short) ∧
    (∀ (s : Specifier) (rest : Text), source = s.text ++ rest → s.Admitted mode → s.Short →
      s.meaning.consumed = source.length - rest.length ∧ ∀ other, standard (s.text ++ other) mode = .ok s.meaning) ∧
    ∀ (s : Specifier) (ds rest : Text), source = s.text ++ rest → s.precision = some ds → maxDigits < ds.length →
      ∀ other, standard (s.text ++ other) mode = .error (.crash (.longNumber ds)) := by
  refine ⟨⟨fun ⟨c, h⟩ => exists_specifier source mode c ascii h, ?_⟩, ?_, ?_⟩
  · rintro ⟨s, rest, rfl, admitted, short⟩
    exact ⟨s.meaning, standard_text s mode admitted short rest⟩
  · rintro s rest rfl admitted short
    refine ⟨?_, standard_text s mode admitted short⟩
    simp [Specifier.meaning]
  · intro s ds rest _ precision many other
    exact standard_long s mode ds other precision many

/-- A zero and a star are flags, a point stands without digits, and the set starts with a bracket behind its caret. Neither a
second bracket behind the format nor anything else changes it. -/
theorem standard_grammar_set :
    AsciiDigits "%0*12.[^]a]]5".toList ∧ ∀ other, standard ("%0*12.[^]a]".toList ++ other) .scan = .ok {
      descriptor := ⟨.string, '[', ⟨0x30⟩, 12, 0, 4⟩
      consumed := 11
      info := [0x5E, 0x5D, 0x61, 0x00] } := by
  let s : Specifier := {
    flags := ['0', '*']
    width := ['1', '2']
    precision := some []
    conversion := '['
    type := .string
    infoText := "^]a]".toList
    info := [0x5E, 0x5D, 0x61, 0x00]
    flags_known := List.all_eq_true.mp (by decide)
    width_digits := List.all_eq_true.mp (by decide)
    width_first := by decide
    width_small := by decide
    precision_digits := by simp
    precision_small := by
      rintro ds ⟨⟩
      decide
    conversion_known := rfl
    info_written := @InfoText.charSet ['^'] ['a'] ']' (.inl rfl) (by decide) }
  have ascii : AsciiDigits "%0*12.[^]a]]5".toList := by decide
  have short : s.Short := by
    rintro ds ⟨⟩
    exact Nat.zero_le _
  exact ⟨ascii, ((standard_grammar _ .scan ascii).2.1 s [']', '5'] rfl (fun _ => rfl) short).2⟩

/-- A precision of zero, written with one digit more than are converted. -/
theorem standard_refuses_zeros :
    let zeros : Text := List.replicate 4301 '0'
    let source : Text := '%' :: '.' :: zeros ++ ['d']
    (∃ s : Specifier, source = s.text ∧ s.Admitted .print ∧ s.meaning.descriptor = ⟨.signed, 'd', .empty, 0, 0, 0⟩) ∧
      standard source .print = .error (.crash (.longNumber zeros)) := by
  intro zeros source
  have value (n : Nat) : digitsValue 10 (List.replicate n '0') = 0 := by
    induction n with
    | zero => rfl
    | succ n ih => exact ih
  have digits : ∀ d ∈ zeros, isDecimalDigit d = true := by
    intro d mem
    rw [List.eq_of_mem_replicate mem]
    rfl
  let s : Specifier := {
    flags := []
    width := []
    precision := some zeros
    conversion := 'd'
    type := .signed
    infoText := []
    info := []
    flags_known := by simp
    width_digits := by simp
    width_first := by simp
    width_small := Nat.zero_le _
    precision_digits := by
      rintro ds ⟨⟩
      exact digits
    precision_small := by
      rintro ds ⟨⟩
      exact (value 4301).le.trans (Nat.zero_le _)
    conversion_known := rfl
    info_written := .none (by decide) }
  have many : maxDigits < zeros.length := by
    rw [List.length_replicate]
    decide
  have text : source = s.text := rfl
  have precision : s.meaning.descriptor.precision = 0 := congrArg Int.ofNat (value 4301)
  refine ⟨⟨s, text, by simp [Specifier.Admitted, s], ?_⟩, ?_⟩
  · rw [Specifier.meaning] at precision ⊢
    rw [Descriptor.mk.injEq]
    exact ⟨rfl, rfl, rfl, rfl, precision, rfl⟩
  · rw [text, ← List.append_nil s.text]
    exact standard_long s .print zeros [] rfl many

end Format
end DeviceProtocol
