import DeviceProtocol.Proofs.JoinedStrings
import DeviceProtocol.Proofs.NumberReading
import DeviceProtocol.Proofs.SentArguments
import DeviceProtocol.Proofs.Utf8
import DeviceProtocol.Scanner.Tokens
set_option autoImplicit false

/-!
Strings that are printed and read again. A string of literals and markers is printed as it may be written between double
quotes, and most of it comes back from there. What does not come back are the bytes that are printed as characters beyond
ASCII, because such a character is read as two bytes, and dollar signs before a name, because they are read as
references.
-/
namespace DeviceProtocol

namespace Instruction

def isWide (b : UInt8) : Bool := 0xA0 ≤ b && b ≤ 0xFE

def startsName (b : UInt8) : Bool :=
  (0x41 ≤ b && b ≤ 0x5A) || (0x61 ≤ b && b ≤ 0x7A) || (0x30 ≤ b && b ≤ 0x39) || b == 0x5F || b == 0x7B

/-- The bytes are printed in a way in which they can be read again. -/
structure Legible (data : Bytes) : Prop where
  narrow : ∀ b ∈ data, isWide b = false
  dollar : data.IsChain fun a b => a = 0x24 → startsName b = false

theorem legible_iff_all (data : Bytes) :
    data.all (fun b => !isWide b) = true ∧ data.IsChain (fun a b => a = 0x24 → startsName b = false) ↔
      Legible data := by
  simp only [List.all_eq_true, Bool.not_eq_true']
  exact ⟨fun ⟨narrow, dollar⟩ => ⟨narrow, dollar⟩, fun ⟨narrow, dollar⟩ => ⟨narrow, dollar⟩⟩

instance (data : Bytes) : Decidable (Legible data) := decidable_of_iff _ (legible_iff_all data)

end Instruction

namespace Cell

open Instruction

/-- The cells of an instruction, one for each byte of a literal. -/
def ofInstruction : Instruction → List Cell
  | .literal data => data.map byte
  | .control code => [control code]
  | .field f => [field f]

def printed (mode : Mode) (c : Cell) : Text := c.toInstruction.toText mode

theorem printed_byte (mode : Mode) (b : UInt8) : (byte b).printed mode = showByte mode b := List.append_nil _

theorem map_toInstruction_ofInstruction (i : Instruction) : (ofInstruction i).map toInstruction = i.singles := by
  cases i with
  | literal data => exact List.map_map
  | control code | field f => rfl

theorem toInstructions_ofInstruction (s : List Instruction) (h : CanonicalString s) :
    toInstructions (s.flatMap ofInstruction) = s := by
  have singles : (s.flatMap ofInstruction).map toInstruction = s.flatMap Instruction.singles := by
    rw [List.map_flatMap]
    exact List.flatMap_congr fun i _ => map_toInstruction_ofInstruction i
  rw [toInstructions, singles, merge_singles s h.each, merge_of_apart s h.apart]

theorem flatMap_printed (mode : Mode) (s : List Instruction) :
    (s.flatMap ofInstruction).flatMap (printed mode) = printString mode s := by
  rw [List.flatMap_assoc, printString]
  refine List.flatMap_congr fun i _ => ?_
  cases i with
  | literal data =>
    rw [ofInstruction, List.flatMap_map]
    exact List.flatMap_congr fun b _ => printed_byte mode b
  | control code | field f => exact List.append_nil _

inductive IsMark : Cell → Prop
  | byte (b : UInt8) : IsMark (byte b)
  | skip : IsMark (control .skip)
  | whitespace : IsMark (control .whitespace)

theorem IsMark.ne_char {c : Cell} (h : c.IsMark) (d : Char) : c ≠ char d := by
  rintro rfl
  cases h

theorem isMark_of_mem (s : List Instruction) (h : CanonicalString s) (fieldless : ∀ f, .field f ∉ s) (c : Cell)
    (hc : c ∈ s.flatMap ofInstruction) : c.IsMark := by
  obtain ⟨i, hi, hc⟩ := List.mem_flatMap.mp hc
  cases i with
  | literal data =>
    obtain ⟨b, -, rfl⟩ := List.mem_map.mp hc
    exact .byte b
  | control code =>
    cases List.mem_singleton.mp hc
    rcases h.each _ hi with rfl | rfl
    · exact .skip
    · exact .whitespace
  | field f => exact absurd hi (fieldless f)

/-- The cell that is read where a cell was printed. -/
def reread (mode : Mode) : Cell → Cell
  | .byte b => if (showByte mode b).length = 1 then char (Char.ofNat b.toNat) else byte b
  | c => c

/-- The ways to print a cell, each with the cell that is read: an escape, two percent signs, or one character. -/
inductive Printed (mode : Mode) (c : Cell) : Text → Cell → Prop
  | escape {d : Char} {digits : Text} (dollar : d ≠ '$') (newline : d ≠ '\n')
      (hex : ∀ e ∈ digits, isHexDigit e = true)
      (value : ∀ rest, Cell.escape (d :: digits ++ rest) = .ok ([c], (d :: digits).length)) :
      Printed mode c ('\\' :: d :: digits) c
  | percent (formats : mode ≠ .plain) (hc : c = .byte 0x25) : Printed mode c ['%', '%'] c
  | char {b : UInt8} {d : Char} (hc : c = .byte b) (code : d.toNat = b.toNat) (allowed : isForbidden d = false)
      (special : d ∉ ['\\', '"']) (percent : d = '%' → mode = .plain) : Printed mode c [d] (.char d)

theorem numeral_hex (n : Nat) (h : n < 0x100) :
    (Text.numeral 16 2 n).length = 2 ∧ (Text.numeral 16 2 n).all isHexDigit = true ∧
      digitsValue 16 (Text.numeral 16 2 n) = n := by
  revert n
  decide +kernel

theorem escape_numeral (b : UInt8) (rest : Text) :
    escape ('x' :: Text.numeral 16 2 b.toNat ++ rest) = .ok ([byte b], ('x' :: Text.numeral 16 2 b.toNat).length) := by
  obtain ⟨length, hex, value⟩ := numeral_hex b.toNat b.toNat_lt
  have digits : ((Text.numeral 16 2 b.toNat ++ rest).take 2).takeWhile isHexDigit = Text.numeral 16 2 b.toNat := by
    rw [List.take_left' length]
    exact List.takeWhile_eq_self_iff.mpr (List.all_eq_true.mp hex)
  have some : (Text.numeral 16 2 b.toNat).isEmpty = false := by
    rw [List.isEmpty_eq_false_iff]
    exact List.ne_nil_of_length_pos (by omega)
  simp only [List.cons_append, escape, digits, some, value, ofNumber_of_lt _ _ b.toNat_lt, UInt8.ofNat_toNat,
    List.length_cons]
  rfl

theorem printed_showByte (mode : Mode) (b : UInt8) : Printed mode (byte b) (showByte mode b) ((byte b).reread mode) := by
  have code : (Char.ofNat b.toNat).toNat = b.toNat := Utf8.toNat_ofNat _ (.inl (by have := b.toNat_lt; omega))
  have different (d : Char) (h : b ≠ UInt8.ofNat d.toNat) : Char.ofNat b.toNat ≠ d := by
    rintro rfl
    rw [code, UInt8.ofNat_toNat] at h
    exact h rfl
  have escaped (d : Char) (dollar : d ≠ '$') (newline : d ≠ '\n') (value : ∀ rest, escape (d :: rest) = .ok ([byte b], 1)) :
      Printed mode (byte b) ['\\', d] (byte b) :=
    .escape dollar newline (List.forall_mem_nil _) value
  rw [reread]
  -- one way to print a byte in each branch; the last one prints it as it is
  generalize shown : showByte mode b = text
  unfold showByte at shown
  split at shown
  · next h =>
    subst h shown
    exact escaped 'r' (by decide) (by decide) fun rest => rfl
  split at shown
  · next h =>
    subst h shown
    exact escaped 'n' (by decide) (by decide) fun rest => rfl
  split at shown
  · next h =>
    subst h shown
    exact escaped '"' (by decide) (by decide) fun rest => rfl
  split at shown
  · next h =>
    subst h shown
    exact escaped '\\' (by decide) (by decide) fun rest => rfl
  split at shown
  · next h =>
    subst shown
    simp only [Bool.and_eq_true, decide_eq_true_eq, bne_iff_ne] at h
    exact .percent h.2 (congrArg byte h.1)
  split at shown
  · subst shown
    obtain ⟨-, hex, -⟩ := numeral_hex b.toNat b.toNat_lt
    rw [if_neg (by simp)]
    exact .escape (by decide) (by decide) (List.all_eq_true.mp hex) (escape_numeral b)
  · next quote backslash percent control =>
    subst shown
    simp only [Bool.or_eq_true, decide_eq_true_eq, not_or] at control
    simp only [Bool.and_eq_true, decide_eq_true_eq, bne_iff_ne, not_and, not_not] at percent
    rw [if_pos (by rfl)]
    refine .char rfl code ?_ ?_ fun h => percent ?_
    · simp only [isForbidden, code, decide_eq_false_iff_not]
      exact control.1
    · simp only [List.mem_cons, List.not_mem_nil, or_false, not_or]
      exact ⟨different _ backslash, different _ quote⟩
    · by_contra other
      exact different '%' other h

theorem printed_of_isMark (mode : Mode) (c : Cell) (h : c.IsMark) : Printed mode c (c.printed mode) (c.reread mode) := by
  cases h with
  | byte b =>
    rw [printed_byte]
    exact printed_showByte mode b
  | skip => exact .escape (by decide) (by decide) (by simp) fun rest => rfl
  | whitespace => exact .escape (by decide) (by decide) (by simp) fun rest => rfl

theorem Printed.ne_nil {mode : Mode} {c back : Cell} {text : Text} (h : Printed mode c text back) : text ≠ [] := by
  cases h <;> exact List.cons_ne_nil _ _

def Unreferring (mode : Mode) (cells : List Cell) : Prop :=
  cells.IsChain fun a c => a = byte 0x24 → Scanner.startsReference (c.printed mode) = false

theorem unreferring_cons_iff (mode : Mode) (c : Cell) (cells : List Cell) (marks : ∀ d ∈ cells, d.IsMark) :
    Unreferring mode (c :: cells) ↔
      (c = byte 0x24 → Scanner.startsReference (cells.flatMap (printed mode) ++ ['"']) = false) ∧
        Unreferring mode cells := by
  refine List.isChain_cons.trans (and_congr_left' ?_)
  cases cells with
  | nil =>
    have close : Scanner.startsReference ['"'] = false := by decide
    simp [close]
  | cons d cells =>
    have some := (printed_of_isMark mode d (marks d List.mem_cons_self)).ne_nil
    simp only [List.head?_cons, Option.mem_some_iff, forall_eq', List.flatMap_cons, List.append_assoc,
      Scanner.startsReference_append _ _ some]

end Cell

namespace Scanner

open Cell

theorem readPiece_digits (line : Int) (digits rest : Text) (hex : ∀ d ∈ digits, isHexDigit d = true) :
    readPiece .double line (digits ++ rest) = (readPiece .double line rest).push digits := by
  induction digits with
  | nil => rfl
  | cons d digits ih =>
    rw [List.forall_mem_cons] at hex
    have other (e : Char) (he : isHexDigit e = false) : d ≠ e := ne_of_isHexDigit d e hex.1 he
    rw [List.cons_append, readPiece_char .double line d _ (other _ (by decide)) (other _ (by decide)) (other _ (by decide))
      fun h => absurd h (other _ (by decide)), ih hex.2]
    rfl

theorem readPiece_printed (line : Int) (mode : Mode) (c back : Cell) (text rest : Text) (h : Printed mode c text back)
    (unreferring : c = .byte 0x24 → startsReference rest = false) :
    readPiece .double line (text ++ rest) = (readPiece .double line rest).push text := by
  cases h with
  | @escape d digits dollar newline hex value =>
    rw [List.cons_append, List.cons_append, readPiece_cons, if_neg (by decide), if_neg (by decide), if_pos rfl]
    dsimp only
    rw [if_neg dollar, if_neg newline, readPiece_digits line digits rest hex]
    rfl
  | percent formats hc =>
    have step (rest : Text) : readPiece .double line ('%' :: rest) = (readPiece .double line rest).push ['%'] :=
      readPiece_char .double line '%' rest (by decide) (by decide) (by decide) fun h => absurd h (by decide)
    show readPiece .double line ('%' :: '%' :: rest) = _
    rw [step, step]
    rfl
  | @char b d hc code allowed special percent =>
    simp only [List.mem_cons, List.not_mem_nil, or_false, not_or] at special
    refine readPiece_char .double line d rest ?_ special.2 special.1 ?_
    · rintro rfl
      cases allowed
    · rintro rfl
      refine unreferring ?_
      rw [hc, ← b.ofNat_toNat, ← code]
      rfl

theorem readPiece_cells (line : Int) (mode : Mode) (cells : List Cell) (marks : ∀ c ∈ cells, c.IsMark) :
    Unreferring mode cells ∧ readPiece .double line (cells.flatMap (printed mode) ++ ['"']) =
        ⟨cells.flatMap (printed mode), .closed, [], line⟩ ∨
      ¬ Unreferring mode cells ∧ ∃ text after, startsReference after = true ∧
        readPiece .double line (cells.flatMap (printed mode) ++ ['"']) = ⟨text, .reference, '$' :: after, line⟩ := by
  induction cells with
  | nil => exact .inl ⟨.nil, rfl⟩
  | cons c cells ih =>
    rw [List.forall_mem_cons] at marks
    rw [unreferring_cons_iff mode c cells marks.2, List.flatMap_cons, List.append_assoc]
    by_cases hit : c = .byte 0x24 → startsReference (cells.flatMap (printed mode) ++ ['"']) = false
    · rw [readPiece_printed line mode c _ _ _ (printed_of_isMark mode c marks.1) hit]
      rcases ih marks.2 with ⟨unreferring, piece⟩ | ⟨referring, text, after, starts, piece⟩
      · refine .inl ⟨⟨hit, unreferring⟩, ?_⟩
        rw [piece]
        rfl
      · refine .inr ⟨fun h => referring h.2, c.printed mode ++ text, after, starts, ?_⟩
        rw [piece]
        rfl
    · refine .inr ⟨fun h => hit h.1, ?_⟩
      simp only [Classical.not_imp, Bool.not_eq_false] at hit
      obtain ⟨rfl, starts⟩ := hit
      refine ⟨[], _, starts, ?_⟩
      show readPiece .double line ('$' :: (cells.flatMap (printed mode) ++ ['"'])) = _
      rw [readPiece_cons, if_neg (by decide), if_neg (by decide), if_neg (by decide), if_pos (by simp [starts])]

end Scanner

namespace Compiler

open Cell

theorem compileFormats_cell (k : Compiler) (line : Int) (file : Option Text) (mode : Mode) (position : Nat) (c : Cell)
    (cells : List Cell) (plain : c ≠ .char '%') :
    k.compileFormats line file mode position (c :: cells) =
      (k.compileFormats line file mode (position + 1) cells).map (c :: ·) := by
  rw [compileFormats]
  · cases k.compileFormats line file mode (position + 1) cells <;> rfl
  · exact fun _ hc _ => plain hc
  · exact plain

theorem compileFormats_percent (k : Compiler) (line : Int) (file : Option Text) (mode : Mode) (position : Nat)
    (cells : List Cell) :
    k.compileFormats line file mode position (.char '%' :: .char '%' :: cells) =
      (k.compileFormats line file mode (position + 1) cells).map (.byte 0x25 :: ·) := by
  rw [compileFormats]
  cases k.compileFormats line file mode (position + 1) cells <;> rfl

/-- The printed form of a cell, before other text, is read as one cell. Two percent signs are two cells until the formats
are compiled. -/
theorem ofQuoted_printed (mode : Mode) (c back : Cell) (text rest : Text) (mark : c.IsMark)
    (h : Printed mode c text back) :
    ∃ raw, ofQuoted (text ++ rest) = (ofQuoted rest).map (raw ++ ·) ∧ (mode = .plain → raw = [back]) ∧
      (mode ≠ .plain → ∀ (k : Compiler) line file position cells,
        k.compileFormats line file mode position (raw ++ cells) =
          (k.compileFormats line file mode (position + 1) cells).map (back :: ·)) := by
  cases h with
  | @escape d digits dollar newline hex value =>
    refine ⟨[c], ?_, fun _ => rfl, fun _ k line file position cells => ?_⟩
    · rw [List.cons_append, ofQuoted_escape _ [c] _ (value rest), List.drop_left]
    · exact k.compileFormats_cell line file mode position c cells (mark.ne_char '%')
  | percent formats hc =>
    subst hc
    have plain : ∀ d ∈ ['%', '%'], isForbidden d = false ∧ d ≠ '\\' := by
      intro d hd
      obtain rfl : d = '%' := by simpa using hd
      exact ⟨by decide, by decide⟩
    refine ⟨[.char '%', .char '%'], ofQuoted_plain ['%', '%'] rest plain, fun h => absurd h formats, ?_⟩
    exact fun _ k line file position cells => k.compileFormats_percent line file mode position cells
  | @char b d hc code allowed special percent =>
    simp only [List.mem_cons, List.not_mem_nil, or_false, not_or] at special
    refine ⟨[.char d], ofQuoted_char d rest allowed special.1, fun _ => rfl, fun formats k line file position cells => ?_⟩
    refine k.compileFormats_cell line file mode position (.char d) cells fun h => formats (percent ?_)
    exact Cell.char.inj h

theorem ofQuoted_cells (mode : Mode) (cells : List Cell) (marks : ∀ c ∈ cells, c.IsMark) :
    ∃ raw, ofQuoted (cells.flatMap (printed mode)) = .ok raw ∧ (mode = .plain → raw = cells.map (reread mode)) ∧
      (mode ≠ .plain → ∀ (k : Compiler) line file position,
        k.compileFormats line file mode position raw = .ok (cells.map (reread mode))) := by
  induction cells with
  | nil =>
    refine ⟨[], ofQuoted_nil, fun _ => rfl, fun _ k line file position => ?_⟩
    rw [compileFormats]
    rfl
  | cons c cells ih =>
    rw [List.forall_mem_cons] at marks
    obtain ⟨back, hback, plainBack, formatsBack⟩ := ih marks.2
    obtain ⟨raw, hraw, plain, formats⟩ :=
      ofQuoted_printed mode c _ _ (cells.flatMap (printed mode)) marks.1 (printed_of_isMark mode c marks.1)
    refine ⟨raw ++ back, ?_, fun h => ?_, fun h k line file position => ?_⟩
    · rw [List.flatMap_cons, hraw, hback]
      rfl
    · rw [plain h, plainBack h]
      rfl
    · rw [formats h, formatsBack h]
      rfl

theorem compileString_cells (k : Compiler) (p : Protocol) (mode : Mode) (line : Int) (cells : List Cell)
    (marks : ∀ c ∈ cells, c.IsMark) :
    (k.compileString p mode [⟨.string, cells.flatMap (printed mode), line, some .double⟩]).result =
      .ok (toInstructions (cells.map (reread mode))) := by
  obtain ⟨raw, hraw, plain, formats⟩ := ofQuoted_cells mode cells marks
  let t : Token := ⟨.string, cells.flatMap (printed mode), line, some .double⟩
  have encoded : (Traced.flatMap (k.encode p mode k.depthLimit.toNat) [.token t]).result = .ok raw := by
    rw [Traced.flatMap_eq_ok_iff]
    exact ⟨[raw], .cons ((k.encode_string_iff p mode _ t raw rfl).mpr hraw) .nil, by simp⟩
  refine k.compileString_line p mode [t] [.token t] _ rfl ?_
  rw [compileLine, Traced.bind_of_ok _ _ raw encoded]
  cases mode with
  | plain => exact congrArg Except.ok (plain rfl)
  | scan => exact formats (by decide) k _ _ _
  | print => exact formats (by decide) k _ _ _

end Compiler

namespace Scanner

theorem tokens_eq_ok_iff (s s' : Scanner) (ts : List Token) :
    s.tokens = .ok ts s' ↔ ∃ t s₁, readToken .value true s = .ok t s₁ ∧
      (t.kind = .eof ∧ ts = [t] ∧ s' = s₁ ∨ t.kind ≠ .eof ∧ ∃ us, s₁.tokens = .ok us s' ∧ ts = t :: us) := by
  rw [tokens]
  split
  · next e s₁ failed =>
    constructor
    · rintro ⟨⟩
    · rintro ⟨t, s₂, token, -⟩
      cases failed.symm.trans token
  · next t s₁ token =>
    constructor
    · intro h
      refine ⟨t, s₁, token, ?_⟩
      split at h
      · next ending =>
        cases h
        exact .inl ⟨ending, rfl, rfl⟩
      · next more =>
        split at h
        · cases h
        · next us s₂ rest =>
          cases h
          exact .inr ⟨more, us, rest, rfl⟩
    · rintro ⟨t', s₁', token', h⟩
      cases token.symm.trans token'
      obtain ⟨ending, rfl, rfl⟩ | ⟨more, us, rest, rfl⟩ := h
      · rw [dif_pos ending]
      · rw [dif_neg more, rest]

theorem tokens_ne_nil (s s' : Scanner) : s.tokens ≠ .ok [] s' := by
  intro h
  obtain ⟨t, s₁, -, ⟨-, h, -⟩ | ⟨-, us, -, h⟩⟩ := (tokens_eq_ok_iff s s' []).mp h <;> cases h

theorem tokens_cons (s s₁ s' : Scanner) (t : Token) (ts : List Token) (token : readToken .value true s = .ok t s₁)
    (going : t.kind ≠ .eof) (rest : s₁.tokens = .ok ts s') : s.tokens = .ok (t :: ts) s' :=
  (tokens_eq_ok_iff s s' (t :: ts)).mpr ⟨t, s₁, token, .inr ⟨going, ts, rest, rfl⟩⟩

theorem tokens_nil : (ofSource []).tokens = .ok [⟨.eof, [], 1, none⟩] (ofSource []) := by
  have last : readToken .value true (ofSource []) = .ok ⟨.eof, [], 1, none⟩ (ofSource []) := by
    rw [readToken]
    rfl
  exact (tokens_eq_ok_iff _ _ _).mpr ⟨_, _, last, .inl ⟨rfl, rfl, rfl⟩⟩

theorem readToken_opening (set : Specials) (eofAllowed : Bool) (text : Text) :
    readToken set eofAllowed (ofSource ('"' :: text)) = readString .double (ofSource text) :=
  readToken_of_quote set eofAllowed _ '"' (ofSource text) .double rfl rfl rfl

theorem kind_of_readToken_dollar (set : Specials) (eofAllowed : Bool) (after : Text) (line : Int) (quote : Quote)
    (t : Token) (s' : Scanner) (starts : startsReference after = true)
    (h : readToken set eofAllowed { rest := '$' :: after, line := line, quote := some quote } = .ok t s') :
    t.kind = .reference := by
  by_cases braces : after.head? = some '\x7b'
  · obtain ⟨cs, rfl⟩ := List.head?_eq_some_iff.mp braces
    have token := (readToken_of_braces set eofAllowed _ cs rfl).symm.trans h
    split at token
    · cases token
    · obtain ⟨name, s₂, -, close⟩ := closeBraces_eq_ok token
      exact (closeReference_ok _ _ _ _ _ _ close).1
  · have token := (readToken_of_dollar set eofAllowed _ after rfl braces (by simp [starts])).symm.trans h
    exact (readPlainReference_ok _ _ _ _ _ token).1

end Scanner

theorem tokenize_closed (source text : Text) (piece : Scanner.readPiece .double 1 source = ⟨text, .closed, [], 1⟩) :
    tokenize ('"' :: source) = .ok [⟨.string, text, 1, some .double⟩, ⟨.eof, [], 1, none⟩] := by
  have first : Scanner.readToken .value true (.ofSource ('"' :: source)) =
      .ok ⟨.string, text, 1, some .double⟩ { rest := [] } := by
    rw [Scanner.readToken_opening, Scanner.readString]
    simp only [Scanner.ofSource, piece]
  rw [tokenize, Scanner.tokens_cons _ _ _ _ _ first (by simp) Scanner.tokens_nil]

theorem tokenize_referring (source text after : Text) (ts : List Token) (starts : Scanner.startsReference after = true)
    (piece : Scanner.readPiece .double 1 source = ⟨text, .reference, '$' :: after, 1⟩)
    (h : tokenize ('"' :: source) = .ok ts) : ∃ t ∈ ts.dropLast, t.kind = .reference := by
  have first : Scanner.readToken .value true (.ofSource ('"' :: source)) =
      .ok ⟨.string, text, 1, some .double⟩ { rest := '$' :: after, quote := some .double } := by
    rw [Scanner.readToken_opening, Scanner.readString]
    simp only [Scanner.ofSource, piece]
  unfold tokenize at h
  split at h
  · next ts' s' tokens =>
    cases h
    obtain ⟨t, s₁, token, ⟨ending, -, -⟩ | ⟨-, us, rest, rfl⟩⟩ := (Scanner.tokens_eq_ok_iff _ _ _).mp tokens
    · cases first.symm.trans token
      cases ending
    cases first.symm.trans token
    obtain ⟨u, s₂, second, ⟨ending, -, -⟩ | ⟨-, vs, last, rfl⟩⟩ := (Scanner.tokens_eq_ok_iff _ _ _).mp rest
    · rw [Scanner.kind_of_readToken_dollar _ _ after 1 .double u s₂ starts second] at ending
      cases ending
    -- the last token is another one, the end of the source
    have some : vs ≠ [] := by
      rintro rfl
      exact Scanner.tokens_ne_nil _ _ last
    refine ⟨u, ?_, Scanner.kind_of_readToken_dollar _ _ after 1 .double u s₂ starts second⟩
    rw [List.dropLast_cons_of_ne_nil (List.cons_ne_nil u vs), List.dropLast_cons_of_ne_nil some]
    exact List.mem_cons_of_mem _ List.mem_cons_self
  · cases h

namespace Cell

open Instruction

theorem forall_byte {P : UInt8 → Prop} (h : ∀ n < 0x100, P (UInt8.ofNat n)) (b : UInt8) : P b := by
  have row := h b.toNat b.toNat_lt
  rwa [UInt8.ofNat_toNat] at row

theorem startsReference_showByte (mode : Mode) (b : UInt8) :
    isWide b = false → Scanner.startsReference (showByte mode b) = startsName b := by
  revert b
  cases mode <;> refine forall_byte ?_ <;> decide +kernel

theorem reread_narrow (mode : Mode) (b : UInt8) :
    isWide b = false → (reread mode (byte b)).toInstruction = (byte b).toInstruction := by
  revert b
  cases mode <;> refine forall_byte ?_ <;> decide +kernel

theorem extent_reread_wide (mode : Mode) (b : UInt8) :
    isWide b = true → (reread mode (byte b)).toInstruction.extent = 2 := by
  revert b
  cases mode <;> refine forall_byte ?_ <;> decide +kernel

theorem extents_cons (c : Cell) (cells : List Cell) :
    extents (c :: cells) = c.toInstruction.extent + extents cells := rfl

theorem extent_reread (mode : Mode) (c : Cell) :
    c.toInstruction.extent ≤ (c.reread mode).toInstruction.extent ∧
      ((c.reread mode).toInstruction.extent = c.toInstruction.extent → ∀ b, c = byte b → isWide b = false) := by
  cases c with
  | byte b =>
    have own : (byte b).toInstruction.extent = 1 := rfl
    cases wide : isWide b with
    | false =>
      rw [reread_narrow mode b wide]
      refine ⟨Nat.le_refl _, ?_⟩
      rintro _ _ ⟨⟩
      exact wide
    | true =>
      rw [extent_reread_wide mode b wide, own]
      exact ⟨by decide, fun h => absurd h (by decide)⟩
  | char d | control code | field f =>
    refine ⟨Nat.le_refl _, ?_⟩
    rintro _ _ ⟨⟩

theorem extents_reread (mode : Mode) (cells : List Cell) :
    extents cells ≤ extents (cells.map (reread mode)) ∧
      (extents (cells.map (reread mode)) = extents cells → ∀ b, byte b ∈ cells → isWide b = false) := by
  induction cells with
  | nil => exact ⟨Nat.le_refl _, fun _ b hb => absurd hb List.not_mem_nil⟩
  | cons c cells ih =>
    obtain ⟨le, narrow⟩ := ih
    obtain ⟨leFirst, narrowFirst⟩ := extent_reread mode c
    rw [List.map_cons, extents_cons, extents_cons]
    refine ⟨by omega, fun same b hb => ?_⟩
    rcases List.mem_cons.mp hb with rfl | hb
    · exact narrowFirst (by omega) b rfl
    · exact narrow (by omega) b hb

theorem toInstructions_reread_iff (mode : Mode) (cells : List Cell) :
    toInstructions (cells.map (reread mode)) = toInstructions cells ↔ ∀ b, byte b ∈ cells → isWide b = false := by
  constructor
  · intro h
    have same := congrArg Instruction.extents h
    rw [toInstructions, toInstructions, extents_merge, extents_merge] at same
    exact (extents_reread mode cells).2 same
  · intro narrow
    rw [toInstructions, toInstructions, List.map_map]
    refine congrArg merge (List.map_congr_left fun c hc => ?_)
    cases c with
    | byte b => exact reread_narrow mode b (narrow b hc)
    | char d | control code | field f => rfl

theorem unreferring_iff (mode : Mode) (s : List Instruction) (h : CanonicalString s) (fieldless : ∀ f, .field f ∉ s) :
    Unreferring mode (s.flatMap ofInstruction) ↔
      ∀ data, .literal data ∈ s →
        data.IsChain fun a b => a = 0x24 → Scanner.startsReference (showByte mode b) = false := by
  -- where a literal ends, no name can follow, so only the literals by themselves matter
  have spelled : [] ∉ s.map ofInstruction := by
    intro mem
    obtain ⟨i, hi, empty⟩ := List.mem_map.mp mem
    cases i with
    | literal data => exact h.each _ hi (List.map_eq_nil_iff.mp empty)
    | control code | field f => cases empty
  have literal (data : Bytes) : Unreferring mode (ofInstruction (.literal data)) ↔
      data.IsChain fun a b => a = 0x24 → Scanner.startsReference (showByte mode b) = false := by
    rw [Unreferring, ofInstruction, List.isChain_map]
    simp only [byte.injEq, printed_byte]
  rw [Unreferring, List.flatMap_def, List.isChain_flatten spelled]
  constructor
  · rintro ⟨each, -⟩ data mem
    exact (literal data).mp (each _ (List.mem_map_of_mem mem))
  · intro each
    refine ⟨fun cells mem => ?_, ?_⟩
    · obtain ⟨i, hi, rfl⟩ := List.mem_map.mp mem
      cases i with
      | literal data => exact (literal data).mpr (each data hi)
      | control code | field f => exact .singleton _
    · rw [List.isChain_map]
      refine h.apart.imp_of_mem_imp fun i j hi hj apart x hx y hy dollar => ?_
      subst dollar
      cases j with
      | literal back =>
        cases i with
        | literal front => cases apart
        | control code | field f => cases hx
      | control code =>
        cases hy
        cases code <;> rfl
      | field f => exact absurd hj (fieldless f)

theorem byte_mem_iff (s : List Instruction) (b : UInt8) :
    byte b ∈ s.flatMap ofInstruction ↔ ∃ data, .literal data ∈ s ∧ b ∈ data := by
  rw [List.mem_flatMap]
  constructor
  · rintro ⟨i, hi, hb⟩
    cases i with
    | literal data =>
      obtain ⟨c, hc, ⟨⟩⟩ := List.mem_map.mp hb
      exact ⟨data, hi, hc⟩
    | control code | field f => cases List.mem_singleton.mp hb
  · rintro ⟨data, mem, hb⟩
    exact ⟨_, mem, List.mem_map_of_mem hb⟩

theorem legible_iff (mode : Mode) (s : List Instruction) (h : CanonicalString s) (fieldless : ∀ f, .field f ∉ s) :
    (∀ data, .literal data ∈ s → Legible data) ↔
      (∀ b, byte b ∈ s.flatMap ofInstruction → isWide b = false) ∧ Unreferring mode (s.flatMap ofInstruction) := by
  have narrow : (∀ b, byte b ∈ s.flatMap ofInstruction → isWide b = false) ↔
      ∀ data, .literal data ∈ s → ∀ b ∈ data, isWide b = false := by
    simp only [byte_mem_iff]
    exact ⟨fun h data mem b hb => h b ⟨data, mem, hb⟩, fun h b ⟨data, mem, hb⟩ => h data mem b hb⟩
  have same (data : Bytes) (narrow : ∀ b ∈ data, isWide b = false) :
      (data.IsChain fun a b => a = 0x24 → Scanner.startsReference (showByte mode b) = false) ↔
        data.IsChain fun a b => a = 0x24 → startsName b = false :=
    List.IsChain.iff_of_mem_imp fun a b _ hb => by rw [startsReference_showByte mode b (narrow b hb)]
  rw [narrow, unreferring_iff mode s h fieldless]
  constructor
  · exact fun legible => ⟨fun data mem => (legible data mem).narrow,
      fun data mem => (same data (legible data mem).narrow).mpr (legible data mem).dollar⟩
  · exact fun ⟨narrow, dollar⟩ data mem =>
      ⟨narrow data mem, (same data (narrow data mem)).mp (dollar data mem)⟩

end Cell

theorem Protocol.resolve_of_empty (p : Protocol) (bindings : p.bindings = []) (slots : ∀ i, p.slot i = none) (t : Token)
    (value : List Token) : (p.resolve t).result ≠ .ok value := by
  have missing : (p.consult t.text).result = .ok none := by
    rw [consult_result, lookup, bindings]
    rfl
  unfold resolve
  cases index : p.parameterIndex t.text with
  | error e =>
    rw [Traced.bind_of_error _ _ e rfl]
    rintro ⟨⟩
  | ok i =>
    rw [Traced.bind_of_ok _ _ i rfl]
    cases i with
    | some i =>
      dsimp only
      rw [slots i]
      split
      · rintro ⟨⟩
      · exact Traced.fault_ne_ok _ _ _ _
    | none =>
      dsimp only
      rw [Traced.bind_of_ok _ _ none missing]
      exact Traced.fault_ne_ok _ _ _ _

namespace Compiler

open Instruction

/-- A string of literals and markers that is printed, put between double quotes, and read on a protocol with nothing to
refer to comes back exactly if its literals are legible. -/
theorem compileString_printed_iff (k : Compiler) (p : Protocol) (mode : Mode) (s : List Instruction)
    (canonical : CanonicalString s) (fieldless : ∀ f, .field f ∉ s) (bindings : p.bindings = []) (self : p.self = none)
    (arguments : p.arguments = []) :
    (tokenize ('"' :: printString mode s ++ ['"']) >>= fun ts => (k.compileString p mode ts.dropLast).result) = .ok s ↔
      ∀ data, .literal data ∈ s → Legible data := by
  have marks := Cell.isMark_of_mem s canonical fieldless
  have same := Cell.toInstructions_ofInstruction s canonical
  have slots (i : Nat) : p.slot i = none := by
    cases i with
    | zero => exact self
    | succ i => simp [Protocol.slot, arguments]
  rw [Cell.legible_iff mode s canonical fieldless, ← Cell.flatMap_printed, List.cons_append]
  rcases Scanner.readPiece_cells 1 mode _ marks with ⟨unreferring, piece⟩ | ⟨referring, text, after, starts, piece⟩
  · rw [tokenize_closed _ _ piece]
    show (k.compileString p mode [_]).result = _ ↔ _
    rw [k.compileString_cells p mode 1 _ marks, Except.ok.injEq, and_iff_left unreferring]
    exact ⟨fun h => (Cell.toInstructions_reread_iff mode _).mp (h.trans same.symm),
      fun narrow => ((Cell.toInstructions_reread_iff mode _).mpr narrow).trans same⟩
  · refine ⟨fun h => ?_, fun h => absurd h.2 referring⟩
    obtain ⟨ts, tokens, compiled⟩ := (Except.bind_eq_ok_iff _ _ _).mp h
    obtain ⟨t, mem, reference⟩ := tokenize_referring _ _ after ts starts piece tokens
    obtain ⟨cells, encoded⟩ :=
      k.encode_of_compileString p mode _ s compiled _ (reference_mem_stringItems _ t mem reference)
    obtain ⟨value, -, resolved, -⟩ := (k.encode_reference_iff p mode _ t cells reference).mp encoded
    exact absurd resolved (p.resolve_of_empty bindings slots t value)

/-- Signs with a meaning of their own, control bytes, and dollar signs before a percent sign and at the end of a literal
come back. A dollar sign before a letter does not, nor does a byte that is printed as `é`. -/
theorem compileString_printed_iff_dollar :
    let back (s : List Instruction) : Except Failure (List Instruction) :=
      tokenize ('"' :: printString .scan s ++ ['"']) >>= fun ts => (compileString {} {} .scan ts.dropLast).result
    let s : List Instruction := [.literal [0x24, 0x25, 0x0D, 0x22, 0x80], .control .skip, .literal [0x5C, 0x78, 0x24],
      .control .whitespace, .literal [0x61, 0xFF]]
    back s = .ok s ∧ back [.literal [0x24, 0x61]] ≠ .ok [.literal [0x24, 0x61]] ∧
      back [.literal [0xE9]] ≠ .ok [.literal [0xE9]] := by
  intro back s
  refine ⟨(compileString_printed_iff {} {} .scan s (by decide) (by simp [s]) rfl rfl rfl).mpr ?_, fun h => ?_, fun h => ?_⟩
  · intro data mem
    simp only [s, List.mem_cons, literal.injEq, reduceCtorEq, false_or, List.not_mem_nil, or_false] at mem
    rcases mem with rfl | rfl | rfl <;> decide
  · have legible := (compileString_printed_iff {} {} .scan _ (by decide) (by simp) rfl rfl rfl).mp h
    exact absurd (legible _ List.mem_cons_self) (by decide)
  · have legible := (compileString_printed_iff {} {} .scan _ (by decide) (by simp) rfl rfl rfl).mp h
    exact absurd (legible _ List.mem_cons_self) (by decide)

end Compiler
end DeviceProtocol
