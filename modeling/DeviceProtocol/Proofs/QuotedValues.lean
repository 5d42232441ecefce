import DeviceProtocol.Proofs.Canonical
import DeviceProtocol.Proofs.Escapes
import DeviceProtocol.Proofs.PlainStrings
import DeviceProtocol.ProtocolFile.Read
set_option autoImplicit false

namespace DeviceProtocol

theorem escapeQuotes_plain (c : Char) (cs : Text) (backslash : c ≠ '\\') (quote : c ≠ '"') :
    escapeQuotes (c :: cs) = c :: escapeQuotes cs := by
  simp [escapeQuotes, backslash]

theorem escapeQuotes_digits (ds x : Text) (h : ∀ d ∈ ds, isHexDigit d = true) :
    escapeQuotes (ds ++ x) = ds ++ escapeQuotes x := by
  induction ds with
  | nil => rfl
  | cons d ds ih =>
    rw [List.forall_mem_cons] at h
    rw [List.cons_append, escapeQuotes_plain d _ (ne_of_isHexDigit d _ h.1 (by decide))
      (ne_of_isHexDigit d _ h.1 (by decide)), ih h.2]
    rfl

theorem head?_escapeQuotes_append (x z : Text) (d : Char) (hd : isHexDigit d = true) :
    d ∈ (escapeQuotes x ++ z).head? ↔ d ∈ (x ++ z).head? := by
  unfold escapeQuotes
  split
  · rfl
  · rfl
  · rfl
  · -- neither the quote nor the backslash before it is a digit
    have quote := ne_of_isHexDigit d '"' hd (by decide)
    have backslash := ne_of_isHexDigit d '\\' hd (by decide)
    simp [quote.symm, backslash.symm]
  · rfl

theorem head?_flatMap_escapeQuotes (texts : List Text) (d : Char) (hd : isHexDigit d = true) :
    d ∈ (texts.flatMap escapeQuotes).head? ↔ d ∈ texts.flatten.head? := by
  induction texts with
  | nil => rfl
  | cons t texts ih =>
    rw [List.flatMap_cons, List.flatten_cons, head?_escapeQuotes_append t _ d hd]
    cases t with
    | nil => exact ih
    | cons c cs => rfl

namespace Cell

/-- The text ends with an escape that would take this character too. -/
def takes (text : Text) (c : Char) : Bool :=
  match text with
  | [] => false
  | d :: cs =>
    if d = '\\' then
      match escape cs with
      | .ok (_, n) => if cs.length ≤ n then escapeTakes cs c else takes (cs.drop n) c
      | .error _ => false
    else takes cs c
termination_by text.length
decreasing_by
  · simp only [List.length_drop, List.length_cons]
    omega
  · simp

theorem takes_escape (c d : Char) (e x : Text) (front : List Cell)
    (h : escape (c :: e ++ x) = .ok (front, (c :: e).length)) :
    takes ('\\' :: (c :: e ++ x)) d = if x = [] then escapeTakes (c :: e) d else takes x d := by
  rw [takes, if_pos rfl, h]
  cases x with
  | nil => simp
  | cons y ys =>
    have longer : ¬ (c :: e ++ y :: ys).length ≤ (c :: e).length := by
      simp only [List.length_append, List.length_cons]
      omega
    dsimp only
    rw [if_neg longer, List.drop_left, if_neg (List.cons_ne_nil y ys)]

theorem escapeQuotes_escape (c : Char) (e x : Text) (digits : ∀ d ∈ e, isHexDigit d = true) :
    escapeQuotes ('\\' :: (c :: e ++ x)) = '\\' :: (c :: e ++ escapeQuotes x) := by
  show '\\' :: c :: escapeQuotes (e ++ x) = _
  rw [escapeQuotes_digits e x digits]
  rfl

theorem ofQuoted_quoted_escape (c : Char) (e x z : Text) (front : List Cell)
    (alone : escape (c :: e) = .ok (front, (c :: e).length)) (digits : ∀ d ∈ e, isHexDigit d = true)
    (closed : ∀ d ∈ (x ++ z).head?, escapeTakes (c :: e) d = false) :
    ofQuoted (escapeQuotes ('\\' :: (c :: e ++ x)) ++ z) =
      (ofQuoted (escapeQuotes x ++ z)).map (front ++ ·) := by
  have still_closed : ∀ d ∈ (escapeQuotes x ++ z).head?, escapeTakes (c :: e) d = false := by
    intro d hd
    refine Bool.eq_false_iff.mpr fun taken => ?_
    have hex := isHexDigit_of_escapeTakes (c :: e) d taken
    rw [closed d ((head?_escapeQuotes_append x z d hex).mp hd)] at taken
    cases taken
  rw [escapeQuotes_escape c e x digits, List.cons_append, List.append_assoc,
    ofQuoted_escape _ front _ (escape_append c e _ front alone still_closed), List.drop_left]

theorem ofQuoted_quoted_char (c : Char) (cs : Text) (allowed : isForbidden c = false) (backslash : c ≠ '\\') :
    ∃ quoted : Cell, quoted.toInstruction = (char c).toInstruction ∧ ∀ z,
      ofQuoted (escapeQuotes (c :: cs) ++ z) = (ofQuoted (escapeQuotes cs ++ z)).map (quoted :: ·) := by
  by_cases quote : c = '"'
  · subst quote
    refine ⟨byte 0x22, rfl, fun z => ?_⟩
    show ofQuoted ('\\' :: '"' :: (escapeQuotes cs ++ z)) = _
    rw [ofQuoted_escape _ [byte 0x22] 1 rfl]
    rfl
  · refine ⟨char c, rfl, fun z => ?_⟩
    rw [escapeQuotes_plain c cs backslash quote, List.cons_append, ofQuoted_char c _ allowed backslash]

theorem takes_char (c d : Char) (cs : Text) (backslash : c ≠ '\\') : takes (c :: cs) d = takes cs d := by
  rw [takes, if_neg backslash]

theorem ofQuoted_escapeQuotes_append (t z : Text) (cells : List Cell) (h : ofQuoted t = .ok cells)
    (apart : ∀ d ∈ z.head?, takes t d = false) :
    ∃ quoted, quoted.map toInstruction = cells.map toInstruction ∧
      ofQuoted (escapeQuotes t ++ z) = (ofQuoted z).map (quoted ++ ·) := by
  fun_induction ofQuoted t generalizing cells with
  | case1 =>
    cases h
    refine ⟨[], rfl, ?_⟩
    show ofQuoted z = _
    cases ofQuoted z <;> rfl
  | case2 c cs forbidden => cases h
  | case3 cs allowed ih =>
    obtain ⟨⟨front, n⟩, he, h⟩ := (Except.bind_eq_ok_iff _ _ _).mp h
    obtain ⟨back, hb, h⟩ := (Except.bind_eq_ok_iff _ _ _).mp h
    cases h
    obtain ⟨c, e, x, rfl, rfl, alone, digits, done⟩ := escape_split cs front n he
    have ih := ih (c :: e).length back hb
    rw [List.drop_left] at ih
    simp only [takes_escape c _ e x front he] at apart
    -- the escape is closed by the rest of the string, or else by the first character of `z`
    have closed : ∀ d ∈ (x ++ z).head?, escapeTakes (c :: e) d = false := by
      cases x with
      | nil => simpa using apart
      | cons y ys => exact done
    have rest_apart : ∀ d ∈ z.head?, takes x d = false := by
      cases x with
      | nil => simp [takes]
      | cons y ys => simpa using apart
    obtain ⟨quoted, same, eq⟩ := ih rest_apart
    refine ⟨front ++ quoted, by rw [List.map_append, List.map_append, same], ?_⟩
    rw [ofQuoted_quoted_escape c e x z front alone digits closed, eq]
    cases ofQuoted z with
    | error f => rfl
    | ok back =>
      show Except.ok (front ++ (quoted ++ back)) = Except.ok (front ++ quoted ++ back)
      rw [List.append_assoc]
  | case4 c cs allowed backslash ih =>
    obtain ⟨back, hb, h⟩ := (Except.bind_eq_ok_iff _ _ _).mp h
    cases h
    obtain ⟨quoted, same, eq⟩ := ih back hb (fun d hd => takes_char c d cs backslash ▸ apart d hd)
    obtain ⟨q, hq, step⟩ := ofQuoted_quoted_char c cs (by simpa using allowed) backslash
    refine ⟨q :: quoted, by rw [List.map_cons, List.map_cons, same, hq], ?_⟩
    rw [step, eq]
    cases ofQuoted z <;> rfl

end Cell

namespace Instruction

/-- How much a device is sent or has to send: the bytes of literals, and one for anything else. -/
def extent : Instruction → Nat
  | .literal data => data.length
  | .control _ => 1
  | .field _ => 1

def extents : List Instruction → Nat
  | [] => 0
  | i :: is => i.extent + extents is

theorem extents_append (is js : List Instruction) : extents (is ++ js) = extents is + extents js := by
  induction is with
  | nil => simp [extents]
  | cons i is ih => rw [List.cons_append, extents, extents, ih, Nat.add_assoc]

theorem extents_merge (is : List Instruction) : extents (merge is) = extents is := by
  fun_induction merge is <;> simp_all [extents, extent, Nat.add_assoc]

end Instruction

namespace Cell

def extents (cells : List Cell) : Nat := Instruction.extents (cells.map toInstruction)

theorem extents_append (as bs : List Cell) : extents (as ++ bs) = extents as + extents bs := by
  rw [extents, List.map_append, Instruction.extents_append]
  rfl

theorem extents_chars_pos (ds : Text) (h : ds ≠ []) : 0 < extents (ds.map char) := by
  cases ds with
  | nil => contradiction
  | cons d ds =>
    have pos : 0 < (Text.utf8 [d]).length := by
      simp [Text.utf8, String.length_utf8EncodeChar, d.utf8Size_pos]
    simp only [extents, Instruction.extents, List.map_cons, toInstruction, Instruction.extent]
    omega

/-- Where the escape at the end of a string takes digits from the text behind it, less comes out than of the two
apart. -/
theorem extents_of_takes (t z : Text) (d : Char) (cells out : List Cell) (h : ofQuoted t = .ok cells)
    (taken : takes t d = true) (hout : ofQuoted (escapeQuotes t ++ d :: z) = .ok out) :
    ∃ rest, ofQuoted (d :: z) = .ok rest ∧ extents out < extents cells + extents rest := by
  fun_induction ofQuoted t generalizing cells out with
  | case1 => simp [takes] at taken
  | case2 c cs forbidden => cases h
  | case3 cs allowed ih =>
    obtain ⟨⟨front, n⟩, he, h⟩ := (Except.bind_eq_ok_iff _ _ _).mp h
    obtain ⟨back, hb, h⟩ := (Except.bind_eq_ok_iff _ _ _).mp h
    cases h
    obtain ⟨c, e, x, rfl, rfl, alone, digits, done⟩ := escape_split cs front n he
    have ih := ih (c :: e).length back
    rw [List.drop_left] at hb ih
    rw [takes_escape c d e x front he] at taken
    cases x with
    | nil =>
      rw [if_pos rfl] at taken
      rw [escapeQuotes_escape c e [] digits, escapeQuotes, List.append_nil, List.cons_append] at hout
      obtain ⟨front', n, tail, he', htail, rfl⟩ := ofQuoted_backslash (c :: e ++ d :: z) out hout
      -- the escape takes the digits `ds` of `d :: z`, which read apart are characters, and stays one byte
      obtain ⟨ds, y, hz, nonempty, rfl, hex, ⟨b, rfl⟩, ⟨b', rfl⟩⟩ := escape_more c d e z front front' n alone taken he'
      rw [hz, ← List.append_assoc, ← List.length_append, List.drop_left] at htail
      refine ⟨ds.map char ++ tail, by rw [hz, ofQuoted_digits ds y hex, htail]; rfl, ?_⟩
      have pos := extents_chars_pos ds nonempty
      have bytes : extents [byte b'] = extents [byte b] := rfl
      simp only [extents_append, bytes]
      omega
    | cons y ys =>
      rw [ofQuoted_quoted_escape c e _ _ front alone digits done] at hout
      obtain ⟨out', hout', rfl⟩ := (Except.map_eq_ok_iff _ _ _).mp hout
      obtain ⟨rest, hrest, less⟩ := ih out' hb (by simpa using taken) hout'
      refine ⟨rest, hrest, ?_⟩
      rw [extents_append, extents_append]
      omega
  | case4 c cs allowed backslash ih =>
    obtain ⟨back, hb, h⟩ := (Except.bind_eq_ok_iff _ _ _).mp h
    cases h
    rw [takes_char c d cs backslash] at taken
    obtain ⟨q, hq, step⟩ := ofQuoted_quoted_char c cs (by simpa using allowed) backslash
    rw [step] at hout
    obtain ⟨out', hout', rfl⟩ := (Except.map_eq_ok_iff _ _ _).mp hout
    obtain ⟨rest, hrest, less⟩ := ih back out' hb taken hout'
    have first : extents [q] = extents [char c] := by
      rw [extents, extents, List.map_singleton, List.map_singleton, hq]
    refine ⟨rest, hrest, ?_⟩
    rw [← List.singleton_append, extents_append, ← List.singleton_append (x := char c), extents_append, first]
    omega

theorem isHexDigit_of_takes (text : Text) (d : Char) (h : takes text d = true) : isHexDigit d = true := by
  fun_induction takes text d with
  | case1 => cases h
  | case2 cs front n he le => exact isHexDigit_of_escapeTakes cs d h
  | case3 cs front n he le ih => exact ih h
  | case4 => cases h
  | case5 c cs backslash ih => exact ih h

/-- No string ends with an escape that goes on into the text of the strings behind it. -/
def Separated : List Text → Prop
  | [] => True
  | t :: texts => (∀ d ∈ texts.flatten.head?, takes t d = false) ∧ Separated texts

instance decidableSeparated : (texts : List Text) → Decidable (Separated texts)
  | [] => inferInstanceAs (Decidable True)
  | t :: texts =>
    -- over the option, not over all characters
    have : Decidable (∀ d ∈ texts.flatten.head?, takes t d = false) := Option.decidableForallMem _
    have := decidableSeparated texts
    inferInstanceAs (Decidable (_ ∧ _))

theorem ofQuoted_joined (texts : List Text) (parts : List (List Cell))
    (h : List.Forall₂ (fun t part => ofQuoted t = .ok part) texts parts) (separated : Separated texts) :
    ∃ quoted, ofQuoted (texts.flatMap escapeQuotes) = .ok quoted ∧
      quoted.map toInstruction = parts.flatten.map toInstruction := by
  induction h with
  | nil => exact ⟨[], by simp [ofQuoted], rfl⟩
  | @cons t part texts parts ht h ih =>
    obtain ⟨apart, separated⟩ := separated
    obtain ⟨back, hback, same⟩ := ih separated
    have still_apart : ∀ d ∈ (texts.flatMap escapeQuotes).head?, takes t d = false := by
      intro d hd
      refine Bool.eq_false_iff.mpr fun taken => ?_
      rw [apart d ((head?_flatMap_escapeQuotes texts d (isHexDigit_of_takes t d taken)).mp hd)] at taken
      cases taken
    obtain ⟨front, same', eq⟩ := ofQuoted_escapeQuotes_append t _ part ht still_apart
    refine ⟨front ++ back, by rw [List.flatMap_cons, eq, hback]; rfl, ?_⟩
    rw [List.flatten_cons, List.map_append, List.map_append, same, same']

theorem separated_of_joined (texts : List Text) (parts : List (List Cell)) (out : List Cell)
    (h : List.Forall₂ (fun t part => ofQuoted t = .ok part) texts parts)
    (hout : ofQuoted (texts.flatMap escapeQuotes) = .ok out) :
    extents out ≤ extents parts.flatten ∧ (extents out = extents parts.flatten → Separated texts) := by
  induction h generalizing out with
  | nil =>
    rw [List.flatMap_nil, ofQuoted] at hout
    cases hout
    exact ⟨Nat.le_refl _, fun _ => trivial⟩
  | @cons t part texts parts ht h ih =>
    rw [List.flatMap_cons] at hout
    rw [List.flatten_cons, extents_append]
    by_cases taken : ∃ d ∈ (texts.flatMap escapeQuotes).head?, takes t d = true
    · obtain ⟨d, hd, taken⟩ := taken
      obtain ⟨z, hz⟩ := List.head?_eq_some_iff.mp hd
      rw [hz] at hout
      obtain ⟨rest, hrest, less⟩ := extents_of_takes t z d part out ht taken hout
      have := (ih rest (by rw [hz]; exact hrest)).1
      refine ⟨by omega, fun equal => ?_⟩
      omega
    · have apart : ∀ d ∈ (texts.flatMap escapeQuotes).head?, takes t d = false := by simpa using taken
      obtain ⟨front, same, eq⟩ := ofQuoted_escapeQuotes_append t _ part ht apart
      rw [eq] at hout
      obtain ⟨back, hback, rfl⟩ := (Except.map_eq_ok_iff _ _ _).mp hout
      obtain ⟨le, separated⟩ := ih back hback
      have first : extents front = extents part := by rw [extents, same, extents]
      rw [extents_append, first]
      refine ⟨by omega, fun equal => ⟨fun d hd => ?_, separated (by omega)⟩⟩
      refine Bool.eq_false_iff.mpr fun taken => ?_
      rw [apart d ((head?_flatMap_escapeQuotes texts d (isHexDigit_of_takes t d taken)).mpr hd)] at taken
      cases taken

end Cell

def Token.strings (ts : List Token) : List Text := (ts.filter fun t => t.kind == .string).map Token.text

theorem Token.kind_of_isBlank (t : Token) (h : t.isBlank = true) : t.kind = .special := by
  simp only [isBlank, isSpecial, Bool.and_eq_true, beq_iff_eq] at h
  exact h.1

theorem Token.strings_blank (t : Token) (ts : List Token) (h : t.isBlank = true) :
    strings (t :: ts) = strings ts := by
  simp [strings, t.kind_of_isBlank h]

theorem Token.strings_string (t : Token) (ts : List Token) (h : t.kind = .string) :
    strings (t :: ts) = t.text :: strings ts := by
  simp [strings, h]

theorem Token.not_blank_of_string (t : Token) (h : t.kind = .string) : t.isBlank = false := by
  simp [isBlank, isSpecial, h]

theorem quotePieces_strings (line : Int) (pending : Text) (ts : List Token)
    (strings : ∀ t ∈ ts, t.kind = .string ∨ t.isBlank = true) :
    quotePieces line (some pending) ts =
      [⟨.string, pending ++ (Token.strings ts).flatMap escapeQuotes, line, some .double⟩] := by
  induction ts generalizing pending with
  | nil => simp [quotePieces, quotedString, Token.strings]
  | cons t ts ih =>
    rw [List.forall_mem_cons] at strings
    obtain ⟨hs | hb, strings⟩ := strings
    · have blank := t.not_blank_of_string hs
      rw [Token.strings_string t ts hs]
      simp [quotePieces, hs, blank, ih _ strings]
    · rw [Token.strings_blank t ts hb]
      simp [quotePieces, t.kind_of_isBlank hb, hb, ih _ strings]

theorem quoteTokens_strings (line : Int) (ts : List Token)
    (strings : ∀ t ∈ ts, t.kind = .string ∨ t.isBlank = true) :
    quoteTokens ts line = [⟨.string, (Token.strings ts).flatMap escapeQuotes, line, some .double⟩] := by
  induction ts with
  | nil => rfl
  | cons t ts ih =>
    rw [List.forall_mem_cons] at strings
    obtain ⟨hs | hb, strings⟩ := strings
    · have blank := t.not_blank_of_string hs
      have pieces : quotePieces line none (t :: ts) = quotePieces line (some (escapeQuotes t.text)) ts := by
        simp [quotePieces, hs, blank]
      rw [quoteTokens, pieces, quotePieces_strings line _ ts strings, Token.strings_string t ts hs]
      rfl
    · have pieces : quotePieces line none (t :: ts) = quotePieces line none ts := by
        simp [quotePieces, t.kind_of_isBlank hb, hb]
      rw [quoteTokens, pieces, Token.strings_blank t ts hb]
      exact ih strings

namespace Compiler

variable (k : Compiler) (p : Protocol)

theorem encode_string_iff (mode : Mode) (depth : Nat) (t : Token) (cells : List Cell) (h : t.kind = .string) :
    (k.encode p mode depth (.token t)).result = .ok cells ↔ Cell.ofQuoted t.text = .ok cells := by
  unfold encode
  simp only [h]
  rw [Traced.located_eq_ok_iff]

theorem encode_blank (mode : Mode) (depth : Nat) (t : Token) (h : t.isBlank = true) :
    (k.encode p mode depth (.token t)).result = .ok [] := by
  unfold encode
  simp [t.kind_of_isBlank h, h]

theorem encode_strings (mode : Mode) (depth : Nat) (ts : List Token) (parts : List (List Cell))
    (strings : ∀ t ∈ ts, t.kind = .string ∨ t.isBlank = true)
    (h : List.Forall₂ (fun i part => (k.encode p mode depth i).result = .ok part) (ts.map .token) parts) :
    ∃ own, List.Forall₂ (fun t part => Cell.ofQuoted t = .ok part) (Token.strings ts) own ∧
      own.flatten = parts.flatten := by
  induction ts generalizing parts with
  | nil =>
    cases h
    exact ⟨[], .nil, rfl⟩
  | cons t ts ih =>
    cases h with
    | @cons _ part _ parts ht h =>
      rw [List.forall_mem_cons] at strings
      obtain ⟨own, hown, same⟩ := ih parts strings.2 h
      obtain hs | hb := strings.1
      · rw [Token.strings_string t ts hs]
        refine ⟨part :: own, .cons ((k.encode_string_iff p mode depth t part hs).mp ht) hown, ?_⟩
        rw [List.flatten_cons, List.flatten_cons, same]
      · rw [Token.strings_blank t ts hb]
        rw [k.encode_blank p mode depth t hb] at ht
        cases ht
        exact ⟨own, hown, same⟩

theorem compileString_single_iff (t : Token) (is : List Instruction) (h : t.kind = .string) :
    (k.compileString p .plain [t]).result = .ok is ↔
      ∃ cells, Cell.ofQuoted t.text = .ok cells ∧ is = Cell.toInstructions cells := by
  rw [compileString_plain_iff]
  constructor
  · rintro ⟨parts, hp, rfl⟩
    cases hp with
    | @cons _ part _ parts ht hp =>
      cases hp
      exact ⟨part, (k.encode_string_iff p .plain _ t part h).mp ht, by simp⟩
  · rintro ⟨cells, hc, rfl⟩
    exact ⟨[cells], .cons ((k.encode_string_iff p .plain _ t cells h).mpr hc) .nil, by simp⟩

/-- A value of strings gives the same inside quotes and outside of them exactly if none of its strings ends with a
number that goes on into the next one. -/
theorem compileString_quoteTokens_iff (value : List Token) (line : Int) (is : List Instruction)
    (strings : ∀ t ∈ value, t.kind = .string ∨ t.isBlank = true)
    (compiled : (k.compileString p .plain value).result = .ok is) :
    (k.compileString p .plain (quoteTokens value line)).result = .ok is ↔
      Cell.Separated (Token.strings value) := by
  have unsigned : ∀ t ∈ value, t.isSign = false := by
    intro t ht
    rcases strings t ht with hs | hb
    · simp [Token.isSign, Token.isSpecial, hs]
    · simp [Token.isSign, hb]
  obtain ⟨parts, hp, rfl⟩ := (k.compileString_plain_iff p value is).mp compiled
  rw [stringItems_eq_map value unsigned] at hp
  obtain ⟨own, hown, same⟩ := k.encode_strings p .plain _ value parts strings hp
  rw [quoteTokens_strings line value strings, k.compileString_single_iff p _ _ rfl, ← same]
  constructor
  · rintro ⟨cells, hcells, equal⟩
    -- a number that goes on would leave less of the value
    have extents : Cell.extents cells = Cell.extents own.flatten := by
      have := congrArg Instruction.extents equal
      rw [Cell.toInstructions, Cell.toInstructions, Instruction.extents_merge, Instruction.extents_merge] at this
      exact this.symm
    exact (Cell.separated_of_joined _ own cells hown hcells).2 extents
  · intro separated
    obtain ⟨quoted, hq, code⟩ := Cell.ofQuoted_joined _ own hown separated
    exact ⟨quoted, hq, by rw [Cell.toInstructions, Cell.toInstructions, code]⟩

/-- A hexadecimal number of one digit, then a string that starts with a quote, then a digit on the next line. -/
theorem compileString_quoteTokens_iff_quote :
    let value : List Token := [⟨.string, "\\x1".toList, 1, some .double⟩, ⟨.special, [' '], 1, none⟩,
      ⟨.string, "\"g".toList, 1, some .single⟩, ⟨.string, ['2'], 2, some .double⟩]
    (compileString {} {} .plain value).result = .ok [.literal [0x01, 0x22, 0x67, 0x32]] ∧
      (compileString {} {} .plain (quoteTokens value 1)).result = .ok [.literal [0x01, 0x22, 0x67, 0x32]] := by
  intro value
  have compiled : (compileString {} {} .plain value).result = .ok [.literal [0x01, 0x22, 0x67, 0x32]] := by
    decide +kernel
  exact ⟨compiled, (compileString_quoteTokens_iff {} {} value 1 _ (by decide) compiled).mpr (by decide +kernel)⟩

/-- The same number directly before the digit: outside of quotes two bytes, inside of them one. -/
theorem compileString_quoteTokens_fails_hex :
    let value : List Token := [⟨.string, "\\x1".toList, 1, some .double⟩, ⟨.special, [' '], 1, none⟩,
      ⟨.string, ['2'], 1, some .double⟩]
    (ProtocolFile.ofSource "v = \"\\x1\" \"2\";".toList none).map (fun f => f.globals.lookup ['v']) =
        .ok (some ⟨['v'], value, 1, false⟩) ∧
      (∀ t ∈ value, t.kind = .string ∨ t.isBlank = true) ∧
      (compileString {} {} .plain value).result = .ok [.literal [0x01, 0x32]] ∧
      (compileString {} {} .plain (quoteTokens value 1)).result = .ok [.literal [0x12]] ∧
      ¬ Cell.Separated (Token.strings value) := by
  decide +kernel

end Compiler
end DeviceProtocol
