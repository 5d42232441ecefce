import DeviceProtocol.Proofs.CompiledParts
import DeviceProtocol.Proofs.PrintedStrings
set_option autoImplicit false

/-!
Percent signs that are written twice. Where formats are compiled, two percent signs are a literal one, so a plain string can
be written as one with formats: every percent sign is doubled, except those behind a backslash, which are literal already.
The pairs are found from the left, but never one half of a pair and one half of the next.
-/
namespace DeviceProtocol

/-- The text of a string with its percent signs doubled. A character behind a backslash belongs to the escape. -/
def Text.doublePercents : Text → Text
  | [] => []
  | '\\' :: c :: cs => '\\' :: c :: doublePercents cs
  | '%' :: cs => '%' :: '%' :: doublePercents cs
  | c :: cs => c :: doublePercents cs

namespace Text

theorem doublePercents_plain (c : Char) (cs : Text) (backslash : c ≠ '\\') (percent : c ≠ '%') :
    doublePercents (c :: cs) = c :: doublePercents cs := by
  simp [doublePercents, backslash]

theorem doublePercents_digits (ds x : Text) (hex : ∀ d ∈ ds, isHexDigit d = true) :
    doublePercents (ds ++ x) = ds ++ doublePercents x := by
  induction ds with
  | nil => rfl
  | cons d ds ih =>
    rw [List.forall_mem_cons] at hex
    have backslash := ne_of_isHexDigit d '\\' hex.1 (by decide)
    have percent := ne_of_isHexDigit d '%' hex.1 (by decide)
    simp [doublePercents_plain d _ backslash percent, ih hex.2]

theorem head?_doublePercents (t : Text) : (doublePercents t).head? = t.head? := by
  unfold doublePercents
  split <;> rfl

end Text

namespace Cell

def doubled (cells : List Cell) : List Cell := cells.flatMap fun c => if c = char '%' then [c, c] else [c]

/-- The cell that a plain string has instead of a percent sign. -/
def literal (c : Cell) : Cell := if c = char '%' then byte 0x25 else c

theorem doubled_cons (c : Cell) (cells : List Cell) :
    doubled (c :: cells) = (if c = char '%' then [c, c] else [c]) ++ doubled cells := List.flatMap_cons

theorem doubled_append (as bs : List Cell) : doubled (as ++ bs) = doubled as ++ doubled bs := List.flatMap_append

theorem doubled_of_plain (cells : List Cell) (plain : char '%' ∉ cells) : doubled cells = cells := by
  induction cells with
  | nil => rfl
  | cons c cells ih =>
    simp only [List.mem_cons, not_or] at plain
    simp [doubled_cons, Ne.symm plain.1, ih plain.2]

theorem literal_toInstruction (c : Cell) : c.literal.toInstruction = c.toInstruction := by
  unfold literal
  split
  · next h =>
    subst h
    decide
  · rfl

theorem toInstructions_literal (cells : List Cell) : toInstructions (cells.map literal) = toInstructions cells := by
  simp [toInstructions, Function.comp_def, literal_toInstruction]

theorem escape_plain (text : Text) (cells : List Cell) (n : Nat) (h : escape text = .ok (cells, n)) : char '%' ∉ cells := by
  obtain ⟨code, -, rfl⟩ | ⟨bs, rfl⟩ := escape_cells text cells n h
  · simp
  · simp

theorem ofQuoted_doublePercents (t : Text) (cells : List Cell) (h : ofQuoted t = .ok cells) :
    ofQuoted t.doublePercents = .ok (doubled cells) := by
  fun_induction ofQuoted t generalizing cells with
  | case1 =>
    cases h
    exact ofQuoted_nil
  | case2 c cs forbidden => cases h
  | case3 cs allowed ih =>
    obtain ⟨⟨front, n⟩, he, h⟩ := (Except.bind_eq_ok_iff _ _ _).mp h
    obtain ⟨back, hb, h⟩ := (Except.bind_eq_ok_iff _ _ _).mp h
    cases h
    have plain := escape_plain cs front n he
    obtain ⟨c, e, x, rfl, rfl, alone, hex, done⟩ := escape_split cs front n he
    have written : Text.doublePercents ('\\' :: (c :: e ++ x)) = '\\' :: (c :: e ++ Text.doublePercents x) := by
      simp [Text.doublePercents, Text.doublePercents_digits e x hex]
    -- the text behind the escape starts with the same character as before
    rw [← Text.head?_doublePercents] at done
    have back := ih _ back hb
    rw [List.drop_left] at back
    rw [written, ofQuoted_escape _ front _ (escape_append c e _ front alone done), List.drop_left, back, doubled_append,
      doubled_of_plain front plain]
    rfl
  | case4 c cs allowed backslash ih =>
    obtain ⟨back, hb, h⟩ := (Except.bind_eq_ok_iff _ _ _).mp h
    cases h
    have back := ih back hb
    have legal : isForbidden c = false := by simpa using allowed
    by_cases percent : c = '%'
    · subst percent
      rw [Text.doublePercents, ofQuoted_char _ _ legal backslash, ofQuoted_char _ _ legal backslash, back]
      rfl
    · rw [Text.doublePercents_plain c cs backslash percent, ofQuoted_char c _ legal backslash, back]
      simp [doubled_cons, percent, Except.map]

end Cell

def Token.doublePercents (t : Token) : Token :=
  if t.kind = .string then { t with text := t.text.doublePercents } else t

namespace Token

theorem doublePercents_other (t : Token) (h : t.kind ≠ .string) : t.doublePercents = t := by
  simp [doublePercents, h]

theorem doublePercents_string (t : Token) (h : t.kind = .string) :
    t.doublePercents = { t with text := Text.doublePercents t.text } := by
  simp [doublePercents, h]

theorem isSign_doublePercents (t : Token) : t.doublePercents.isSign = t.isSign := by
  by_cases h : t.kind = .string
  · simp [doublePercents_string t h, isSign_eq_false, h]
  · rw [doublePercents_other t h]

theorem isNumeric_doublePercents (t : Token) : t.doublePercents.isNumeric = t.isNumeric := by
  by_cases h : t.kind = .string
  · simp [doublePercents_string t h, isNumeric_eq_false, h]
  · rw [doublePercents_other t h]

theorem line_doublePercents (t : Token) : t.doublePercents.line = t.line := by
  unfold doublePercents
  split <;> rfl

end Token

theorem StringItem.line_doublePercents (i : StringItem) : (i.map .doublePercents).line = i.line := by
  cases i with
  | token t => exact t.line_doublePercents
  | signed sign number => exact sign.line_doublePercents

/-- The item is no reference, and its tokens are what it takes them for. -/
def StringItem.Settled : StringItem → Prop
  | token t => t.kind ≠ .reference
  | signed sign number => sign.kind = .special ∧ number.kind = .word

theorem stringItems_settled (ts : List Token) (unreferring : ∀ t ∈ ts, t.kind ≠ .reference) :
    ∀ i ∈ stringItems ts, i.Settled := by
  fun_induction stringItems ts with
  | case1 => simp
  | case2 t => simpa [StringItem.Settled] using unreferring
  | case3 t u ts signed ih =>
    simp only [List.forall_mem_cons] at unreferring ⊢
    rw [Bool.and_eq_true] at signed
    refine ⟨⟨t.kind_of_isSign signed.1, ?_⟩, ih unreferring.2.2⟩
    by_contra other
    simp [u.isNumeric_eq_false other] at signed
  | case4 t u ts _ ih =>
    rw [List.forall_mem_cons] at unreferring ⊢
    exact ⟨unreferring.1, ih unreferring.2⟩

namespace Compiler

variable (k : Compiler) (p : Protocol) (mode : Mode)

theorem wordCells_plain (text : Text) (cells : List Cell) (h : wordCells .plain text = .ok cells) :
    wordCells mode text = .ok cells ∧ .char '%' ∉ cells := by
  unfold wordCells at h ⊢
  split at h
  · next empty =>
    cases h
    simp [empty]
  · next spelled =>
    split at h
    · next digit =>
      obtain ⟨c, hc, rfl⟩ := (Except.map_eq_ok_iff _ _ _).mp h
      obtain ⟨b, rfl⟩ := byteCell_eq_byte text c hc
      simp [spelled, digit, h]
    · next word =>
      split at h
      · cases h
      · next skip =>
        split at h
        · next b hb =>
          cases h
          simp [spelled, word, skip]
        · cases h

theorem encode_doublePercents (depth : Nat) (i : StringItem) (cells : List Cell) (settled : i.Settled)
    (h : (k.encode p .plain depth i).result = .ok cells) :
    (k.encode p mode depth (i.map .doublePercents)).result = .ok (Cell.doubled cells) := by
  obtain ⟨sign, number, c, rfl, hc, rfl⟩ | ⟨t, rfl, ⟨string, ht⟩ | ⟨word, ht⟩ | ⟨blank, rfl⟩ | ⟨reference, -⟩⟩ :=
    k.encode_cases p .plain depth i cells h
  · obtain ⟨b, rfl⟩ := byteCell_eq_byte _ c hc
    rw [StringItem.map, sign.doublePercents_other (by simp [settled.1]), number.doublePercents_other (by simp [settled.2]),
      encode, Traced.located_eq_ok_iff, hc]
    rfl
  · let doubled : Token := { t with text := Text.doublePercents t.text }
    rw [StringItem.map, t.doublePercents_string string, k.encode_string_iff p mode depth doubled _ string]
    exact Cell.ofQuoted_doublePercents t.text cells ht
  · obtain ⟨same, plain⟩ := wordCells_plain mode t.text cells ht
    rw [StringItem.map, t.doublePercents_other (by simp [word]), Cell.doubled_of_plain cells plain]
    unfold encode
    simp only [word]
    rwa [Traced.located_eq_ok_iff]
  · rcases blank with terminator | blank
    · rw [StringItem.map, t.doublePercents_other (by simp [terminator])]
      unfold encode
      simp [terminator, Cell.doubled]
    · rw [StringItem.map, t.doublePercents_other (by simp [t.kind_of_isBlank blank])]
      exact k.encode_blank p mode depth t blank
  · exact absurd reference settled

theorem compileFormats_doubled (line : Int) (file : Option Text) (position : Nat) (cells : List Cell) :
    k.compileFormats line file mode position (Cell.doubled cells) = .ok (cells.map Cell.literal) := by
  induction cells generalizing position with
  | nil =>
    rw [Cell.doubled, List.flatMap_nil, compileFormats]
    rfl
  | cons c cells ih =>
    rw [Cell.doubled_cons]
    by_cases percent : c = .char '%'
    · subst percent
      rw [if_pos rfl, List.cons_append, List.cons_append, List.nil_append, compileFormats_percent, ih]
      rfl
    · rw [if_neg percent, List.singleton_append, compileFormats_cell _ _ _ _ _ _ _ percent, ih]
      simp [Except.map, Cell.literal, percent]

theorem flatMap_doublePercents (depth : Nat) (is : List StringItem) (cells : List Cell) (settled : ∀ i ∈ is, i.Settled)
    (h : (Traced.flatMap (k.encode p .plain depth) is).result = .ok cells) :
    (Traced.flatMap (k.encode p mode depth) (is.map (.map .doublePercents))).result = .ok (Cell.doubled cells) := by
  induction is generalizing cells with
  | nil =>
    cases h
    rfl
  | cons i is ih =>
    rw [List.forall_mem_cons] at settled
    rw [Traced.flatMap_cons_eq_ok_iff] at h
    obtain ⟨front, back, hfront, hback, rfl⟩ := h
    rw [List.map_cons, Traced.flatMap_cons_eq_ok_iff]
    exact ⟨_, _, k.encode_doublePercents p mode depth i front settled.1 hfront, ih back settled.2 hback,
      Cell.doubled_append front back⟩

theorem compileLine_doublePercents (formats : mode ≠ .plain) (position : Nat) (run : List StringItem) (cells : List Cell)
    (settled : ∀ i ∈ run, i.Settled)
    (h : (Traced.flatMap (k.encode p .plain k.depthLimit.toNat) run).result = .ok cells) :
    (k.compileLine p mode position (run.map (.map .doublePercents))).result = .ok (cells.map Cell.literal) := by
  have encoded := k.flatMap_doublePercents p mode _ run cells settled h
  have compiled (line : Int) := k.compileFormats_doubled mode line p.file position cells
  rw [compileLine, Traced.bind_of_ok _ _ _ encoded]
  cases run with
  | nil =>
    cases h
    cases mode <;> rfl
  | cons i run =>
    cases mode with
    | plain => exact absurd rfl formats
    | scan | print => exact compiled _

theorem compileLines_doublePercents (formats : mode ≠ .plain) (position : Nat) (runs : List (List StringItem))
    (cells : List Cell) (settled : ∀ i ∈ runs.flatten, i.Settled)
    (h : (Traced.flatMap (k.encode p .plain k.depthLimit.toNat) runs.flatten).result = .ok cells) :
    (k.compileLines p mode position (runs.map (List.map (.map .doublePercents)))).result = .ok (cells.map Cell.literal) := by
  induction runs generalizing position cells with
  | nil =>
    cases h
    rfl
  | cons run runs ih =>
    rw [List.flatten_cons, List.forall_mem_append] at settled
    rw [List.flatten_cons, Traced.flatMap_append_eq_ok_iff] at h
    obtain ⟨front, back, hfront, hback, rfl⟩ := h
    have first := k.compileLine_doublePercents p mode formats position run front settled.1 hfront
    rw [List.map_cons, compileLines, Traced.bind_of_ok _ _ _ first, Traced.bind_of_ok _ _ _ (ih _ back settled.2 hback)]
    simp

/-- A plain string without references can be written as a string with formats: with its percent signs doubled it has no
field and gives the same instructions. -/
theorem compileString_doublePercents (formats : mode ≠ .plain) (ts : List Token) (is : List Instruction)
    (unreferring : ∀ t ∈ ts, t.kind ≠ .reference) (compiled : (k.compileString p .plain ts).result = .ok is) :
    (k.compileString p mode (ts.map .doublePercents)).result = .ok is ∧ ∀ f, .field f ∉ is := by
  constructor
  · obtain ⟨cells, encoded, h⟩ := (Traced.bind_eq_ok_iff _ _ _).mp compiled
    cases h
    rw [compileLines_plain] at encoded
    have settled := stringItems_settled ts unreferring
    rw [← lineRuns_flatten (stringItems ts)] at settled
    have lines := k.compileLines_doublePercents p mode formats 0 _ cells settled encoded
    rw [compileString, stringItems_map _ Token.isSign_doublePercents Token.isNumeric_doublePercents,
      lineRuns_map _ StringItem.line_doublePercents, Traced.bind_of_ok _ _ _ lines, Cell.toInstructions_literal]
    rfl
  · intro f mem
    have field : f ∈ Instruction.fields is := List.mem_filterMap.mpr ⟨.field f, mem, rfl⟩
    exact (k.compileString_fields p .plain ts is compiled f field).1 rfl

/-- Percent signs at the end of one string and at the start of the next, on one line and on two, before a conversion
character, behind an escaped backslash and a number, and behind a backslash. -/
theorem compileString_doublePercents_run :
    let ts : List Token := [⟨.string, "50%".toList, 1, some .double⟩, ⟨.string, "%d\\\\%\\x4%".toList, 1, some .single⟩,
      ⟨.word, "cr".toList, 1, none⟩, ⟨.string, "%\\%%".toList, 2, some .double⟩]
    let is : List Instruction := [.literal [0x35, 0x30, 0x25, 0x25, 0x64, 0x5C, 0x25, 0x04, 0x25, 0x0D, 0x25, 0x25, 0x25]]
    (compileString {} {} .plain ts).result = .ok is ∧
      (compileString {} {} .scan (ts.map .doublePercents)).result = .ok is ∧
      (compileString {} {} .print (ts.map .doublePercents)).result = .ok is := by
  intro ts is
  have compiled : (compileString {} {} .plain ts).result = .ok is := by decide +kernel
  have unreferring : ∀ t ∈ ts, t.kind ≠ .reference := by simp [ts]
  exact ⟨compiled, (compileString_doublePercents {} {} .scan (by decide) ts is unreferring compiled).1,
    (compileString_doublePercents {} {} .print (by decide) ts is unreferring compiled).1⟩

end Compiler
end DeviceProtocol
