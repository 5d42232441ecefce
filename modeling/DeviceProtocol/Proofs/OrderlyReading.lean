import DeviceProtocol.Compile.Source
import DeviceProtocol.Proofs.FileInvariant
import DeviceProtocol.Proofs.RemainingText
import DeviceProtocol.Proofs.Utf8
set_option autoImplicit false

/-!
Failures that are faults. A fault says what is wrong with a source and where. Other failures come from a digit that is
none of `0` to `9`, from a number of too many digits and from references that are nested too deeply. Reading a source all
of whose digits are in the ASCII range fails with a fault, unless such references stand in it, and what has been read has
no other digits either.
-/
namespace DeviceProtocol

def AsciiDigit (c : Char) : Prop := isDigit c = true → c.toNat < 0x80

instance (c : Char) : Decidable (AsciiDigit c) := inferInstanceAs (Decidable (_ → _))

def AsciiDigits (t : Text) : Prop := ∀ c ∈ t, AsciiDigit c

instance (t : Text) : Decidable (AsciiDigits t) := List.decidableBAll AsciiDigit t

theorem AsciiDigits.subset {t u : Text} (h : AsciiDigits t) (sub : u ⊆ t) : AsciiDigits u := fun c hc => h c (sub hc)

theorem asciiDigits_append (t u : Text) : AsciiDigits (t ++ u) ↔ AsciiDigits t ∧ AsciiDigits u := List.forall_mem_append

theorem asciiDigits_cons (c : Char) (t : Text) : AsciiDigits (c :: t) ↔ AsciiDigit c ∧ AsciiDigits t :=
  List.forall_mem_cons

theorem asciiDigits_nil : AsciiDigits [] := fun _ hc => absurd hc (List.not_mem_nil)

theorem AsciiDigit.decimal {c : Char} (h : AsciiDigit c) (digit : isDigit c = true) :
    isDecimalDigit c = true ∧ (decimalValue? c).isSome = true :=
  forall_ascii (fun c => isDigit c = true → isDecimalDigit c = true ∧ (decimalValue? c).isSome = true)
    (by decide) c (h digit) digit

def farDigits : CodeSet := ⟨zeros.map (fun z => (z, z + 9)) ++ undecimalDigits.ranges⟩

theorem farDigits_of_isDigit (c : Char) (digit : isDigit c = true) (far : ¬ c.toNat < 0x80) :
    farDigits.contains c.toNat = true := by
  rw [isDigit, Bool.or_eq_true] at digit
  rw [CodeSet.contains_iff, farDigits]
  rcases digit with decimal | other
  · simp only [decimalValue?, far, if_false, Option.isSome_map] at decimal
    obtain ⟨z, mem, within⟩ := List.find?_isSome.mp decimal
    simp only [Bool.and_eq_true, decide_eq_true_eq] at within
    exact ⟨(z, z + 9), List.mem_append_left _ (List.mem_map.mpr ⟨z, mem, rfl⟩), within.1, by omega⟩
  · obtain ⟨r, mem, within⟩ := (CodeSet.contains_iff _ _).mp other
    exact ⟨r, List.mem_append_right _ mem, within⟩

theorem farDigits_capitals (r : CapitalRun) (mem : r ∈ capitals) (n : Nat) (within : r.contains n = true) :
    farDigits.contains (n + r.shift).toNat = false := by
  have table : (capitals.all fun r => 0 ≤ r.first + r.shift &&
      farDigits.ranges.all fun d => r.last + r.shift < d.1 || d.2 < r.first + r.shift) = true := by
    decide +kernel
  have run := List.all_eq_true.mp table r mem
  simp only [Bool.and_eq_true, decide_eq_true_eq] at run
  simp only [CapitalRun.contains, Bool.and_eq_true, decide_eq_true_eq] at within
  rw [← Bool.not_eq_true, CodeSet.contains_iff]
  rintro ⟨d, hd, lower, upper⟩
  have apart := List.all_eq_true.mp run.2 d hd
  simp only [Bool.or_eq_true, decide_eq_true_eq] at apart
  omega

theorem asciiDigit_of_far (c : Char) (h : farDigits.contains c.toNat = false) : AsciiDigit c := by
  intro digit
  by_cases far : c.toNat < 0x80
  · exact far
  · rw [farDigits_of_isDigit c digit far] at h
    cases h

theorem AsciiDigit.lower {c : Char} (h : AsciiDigit c) : AsciiDigits (lowerChar c) := by
  unfold lowerChar
  dsimp only
  split
  · next ascii =>
    have small := forall_ascii (fun c => c.toLower.toNat < 0x80) (by decide) c ascii
    exact (asciiDigits_cons ..).mpr ⟨fun _ => small, asciiDigits_nil⟩
  · split
    · decide
    · split
      · next r found =>
        refine (asciiDigits_cons ..).mpr ⟨asciiDigit_of_far _ ?_, asciiDigits_nil⟩
        have within := List.find?_some found
        have apart := farDigits_capitals r (List.mem_of_find?_eq_some found) c.toNat within
        by_cases valid : (c.toNat + r.shift).toNat.isValidChar
        · rw [Utf8.toNat_ofNat _ valid]
          exact apart
        · rw [Char.ofNat, dif_neg valid]
          decide
      · exact (asciiDigits_cons ..).mpr ⟨h, asciiDigits_nil⟩

theorem AsciiDigits.fold {t : Text} (h : AsciiDigits t) : AsciiDigits (Text.fold t) := by
  intro d hd
  obtain ⟨c, hc, hd⟩ := List.mem_flatMap.mp hd
  exact (h c hc).lower d hd

theorem AsciiDigits.strip {t : Text} (h : AsciiDigits t) : AsciiDigits t.strip := by
  refine h.subset ?_
  intro c hc
  rw [Text.strip, Text.stripRight, List.mem_reverse] at hc
  exact List.dropWhile_subset _ (List.mem_reverse.mp (List.dropWhile_subset _ hc))

def AsciiTokens (ts : List Token) : Prop := ∀ t ∈ ts, AsciiDigits t.text

theorem AsciiTokens.subset {ts us : List Token} (h : AsciiTokens ts) (sub : us ⊆ ts) : AsciiTokens us :=
  fun t ht => h t (sub ht)

theorem asciiTokens_append (ts us : List Token) : AsciiTokens (ts ++ us) ↔ AsciiTokens ts ∧ AsciiTokens us :=
  List.forall_mem_append

theorem asciiTokens_cons (t : Token) (ts : List Token) :
    AsciiTokens (t :: ts) ↔ AsciiDigits t.text ∧ AsciiTokens ts := List.forall_mem_cons

theorem asciiTokens_nil : AsciiTokens [] := fun _ ht => absurd ht (List.not_mem_nil)

/-- The failure is a fault, or comes from one of the limits: a number has more digits than are converted, or references
are nested too deeply, where this is possible. -/
def Failure.Foreseen (deep : Prop) : Failure → Prop
  | .fault _ => True
  | .crash (.longNumber digits) => maxDigits < digits.length ∧ ∀ c ∈ digits, isDecimalDigit c = true
  | .crash .deepNesting => deep
  | .crash _ => False

theorem Failure.Foreseen.mapFault {deep : Prop} {e : Failure} (h : e.Foreseen deep) (g : Fault → Fault) :
    (e.mapFault g).Foreseen deep := by
  cases e with
  | fault f => trivial
  | crash c => exact h

namespace Scanner

/-- Somewhere in the text, more references open one right inside the other than are read. -/
def Nested (t : Text) : Prop := ∃ cs, '$' :: cs <:+ t ∧ maxNesting < openBraces cs

structure OrderlyText (deep : Prop) (t : Text) : Prop where
  digits : AsciiDigits t
  nesting : Nested t → deep

variable {deep : Prop}

namespace OrderlyText

variable {t u : Text}

theorem suffix (h : OrderlyText deep t) (part : u <:+ t) : OrderlyText deep u where
  digits := h.digits.subset part.subset
  nesting := fun ⟨cs, inside, nested⟩ => h.nesting ⟨cs, inside.trans part, nested⟩

theorem cons (h : OrderlyText deep t) (c : Char) (ascii : AsciiDigit c) (other : c ≠ '$') : OrderlyText deep (c :: t) where
  digits := (asciiDigits_cons ..).mpr ⟨ascii, h.digits⟩
  nesting := by
    rintro ⟨cs, inside, nested⟩
    rcases List.suffix_cons_iff.mp inside with same | inside
    · exact absurd (List.cons.inj same).1.symm other
    · exact h.nesting ⟨cs, inside, nested⟩

theorem remains (h : OrderlyText deep t) (rest : Remains t u) : OrderlyText deep u :=
  rest.keeps suffix (fun h => h.cons ' ' (by decide) (by decide)) h

end OrderlyText

/-- Reading gives a value of this kind and leaves an orderly text, or it fails in a way that was foreseen. -/
def Orderly {α : Type} (deep : Prop) (Q : α → Prop) : Result α → Prop
  | .ok a s => Q a ∧ OrderlyText deep s.rest
  | .error e _ => e.Foreseen deep

theorem orderly_fail {α : Type} (Q : α → Prop) (s : Scanner) (cause : Cause) : Orderly deep Q (s.fail cause) := trivial

theorem Orderly.of_ok {α : Type} {Q : α → Prop} {r : Result α} {a : α} {s : Scanner} (h : Orderly deep Q r)
    (ok : r = .ok a s) : Q a ∧ OrderlyText deep s.rest := by
  rw [ok] at h
  exact h

theorem Orderly.of_error {α : Type} {Q : α → Prop} {r : Result α} {e : Failure} {s : Scanner} (h : Orderly deep Q r)
    (error : r = .error e s) : e.Foreseen deep := by
  rw [error] at h
  exact h

theorem orderly_noted {α : Type} {Q : α → Prop} {r : Result α} (h : Orderly deep Q r) (line : Int) (note : Note) :
    Orderly deep Q (noted line note r) := by
  cases r with
  | ok a s => exact h
  | error e s => exact Failure.Foreseen.mapFault h _

variable {s s' : Scanner}

theorem readRaw_asciiDigit (h : AsciiDigits s.rest) (c : Char) (next : s.readRaw.1 = some c) : AsciiDigit c := by
  rw [readRaw] at next
  split at next
  · cases next
  · next d cs hs =>
    cases next
    exact h c (hs ▸ List.mem_cons_self)

theorem readChar_asciiDigit (h : AsciiDigits s.rest) (c : Char) (next : s.readChar.1 = some c) : AsciiDigit c := by
  rw [readChar] at next
  split at next
  · cases next
  · split at next
    · cases next
      decide
    · exact readRaw_asciiDigit h c next

theorem readFirst_asciiDigit (h : AsciiDigits s.rest) (c : Char) (next : s.readFirst.1 = some c) : AsciiDigit c := by
  rw [readFirst] at next
  split at next
  · exact readRaw_asciiDigit h c next
  · exact readChar_asciiDigit h c next

theorem readWord_asciiDigits (set : Specials) (h : AsciiDigits s.rest) : AsciiDigits (readWord set s).1 := by
  fun_induction readWord set s with
  | case1 => exact asciiDigits_nil
  | case2 => exact asciiDigits_nil
  | case3 s c s₁ char special tail ih =>
    have rest := h.subset s.readChar_suffix.subset
    rw [char] at rest
    have digit := readChar_asciiDigit h c (by rw [char])
    exact (asciiDigits_append ..).mpr ⟨digit.lower, ih rest⟩

theorem readPiece_asciiDigits (quote : Quote) (line : Int) (cs : Text) (h : AsciiDigits cs) :
    AsciiDigits (readPiece quote line cs).text := by
  induction cs using readPiece_induction quote line with
  | escape d ds _ _ _ piece ih =>
    rw [asciiDigits_cons, asciiDigits_cons] at h
    rw [piece]
    exact (asciiDigits_cons ..).mpr ⟨h.1, (asciiDigits_cons ..).mpr ⟨h.2.1, ih h.2.2⟩⟩
  | plain c cs _ _ _ _ piece ih =>
    rw [asciiDigits_cons] at h
    rw [piece]
    exact (asciiDigits_cons ..).mpr ⟨h.1, ih h.2⟩
  | nil piece | newline cs piece | close cs _ piece | last piece | dollar ds _ piece | broken ds piece
  | reference c cs _ _ _ _ piece =>
    rw [piece]
    exact asciiDigits_nil

theorem readString_orderly (quote : Quote) (h : OrderlyText deep s.rest) :
    Orderly deep (fun t => AsciiDigits t.text) (readString quote s) := by
  have text := readPiece_asciiDigits quote s.line s.rest h.digits
  have rest := h.suffix (readPiece_suffix quote s.line s.rest)
  rw [readString]
  dsimp only
  split
  · exact ⟨text, rest⟩
  · exact ⟨text, rest⟩
  · exact ⟨text, rest⟩
  · exact orderly_fail _ _ _
  · exact orderly_fail _ _ _

theorem readPlainReference_orderly (set : Specials) (line : Int) (h : OrderlyText deep s.rest) :
    Orderly deep (fun t => AsciiDigits t.text) (readPlainReference set line s) := by
  have behind := h.suffix s.readRaw_suffix
  rw [readPlainReference]
  split
  · exact orderly_fail _ _ _
  · next c cs hs =>
    rw [hs] at h
    have first := ((asciiDigits_cons ..).mp h.digits).1
    dsimp only
    split
    · exact ⟨(asciiDigits_cons ..).mpr ⟨first, asciiDigits_nil⟩, behind⟩
    · split
      · split
        · exact orderly_fail _ _ _
        · exact ⟨(h.digits.subset (List.takeWhile_subset _)).fold, h.suffix (List.dropWhile_suffix _)⟩
      · split
        · exact orderly_fail _ _ _
        · have word := readWord_asciiDigits set behind.digits
          exact ⟨(asciiDigits_append ..).mpr ⟨first.lower, word⟩, behind.remains (readWord_remains set _)⟩

theorem closeReference_orderly (quote : Option Quote) (line : Int) (name : Token) (hn : AsciiDigits name.text)
    (h : OrderlyText deep s.rest) : Orderly deep (fun t => AsciiDigits t.text) (closeReference quote line name s) := by
  have behind := h.suffix s.readRaw_suffix
  rw [closeReference]
  split
  · exact orderly_fail _ _ _
  · split
    · next hc =>
      rw [hc] at behind
      exact ⟨hn.strip, behind⟩
    · exact orderly_fail _ _ _

theorem readToken_orderly (set : Specials) (eofAllowed : Bool) (h : OrderlyText deep s.rest) :
    Orderly deep (fun t => AsciiDigits t.text) (readToken set eofAllowed s) := by
  have next (s s₁ : Scanner) (c : Char) (first : s.readFirst = (some c, s₁)) (h : OrderlyText deep s.rest) :
      AsciiDigit c ∧ OrderlyText deep s₁.rest := by
    have rest := h.suffix s.readFirst_suffix
    rw [first] at rest
    exact ⟨readFirst_asciiDigit h.digits c (by rw [first]), rest⟩
  induction set, eofAllowed, s using readToken_induction with
  | inside set eofAllowed s quote inside plain token =>
    rw [token]
    exact readString_orderly quote h
  | opening set eofAllowed s c s₁ quote outside first opens token =>
    rw [token]
    exact readString_orderly quote (next s s₁ c first h).2
  | ended set s outside rest token =>
    rw [token]
    exact ⟨asciiDigits_nil, h⟩
  | cut set s outside rest token =>
    rw [token]
    exact orderly_fail _ _ _
  | deep set eofAllowed s cs rest tooDeep token =>
    rw [token]
    exact h.nesting ⟨'\x7b' :: cs, by simp only [rest, List.suffix_rfl], tooDeep⟩
  | braced set eofAllowed s cs rest few token ih =>
    rw [token]
    rw [rest] at h
    have name := ih (h.suffix ((List.suffix_cons _ cs).trans (List.suffix_cons _ _)))
    cases inner : readToken .braced false { rest := cs, line := s.line } with
    | ok t s₂ =>
      obtain ⟨text, behind⟩ := name.of_ok inner
      exact closeReference_orderly _ _ t text behind
    | error e s₂ => exact name.of_error inner
  | plain set eofAllowed s cs rest unbraced starts token =>
    rw [token]
    rw [rest] at h
    exact readPlainReference_orderly set s.line (h.suffix (List.suffix_cons _ cs))
  | special set eofAllowed s c s₁ outside first other unquoted special token =>
    rw [token]
    obtain ⟨digit, behind⟩ := next s s₁ c first h
    exact ⟨(asciiDigits_cons ..).mpr ⟨digit, asciiDigits_nil⟩, behind⟩
  | word set eofAllowed s c s₁ outside first other unquoted plain token =>
    rw [token]
    obtain ⟨digit, behind⟩ := next s s₁ c first h
    have word := readWord_asciiDigits set behind.digits
    exact ⟨(asciiDigits_append ..).mpr ⟨digit.lower, word⟩, behind.remains (readWord_remains set s₁)⟩

def AsciiHead : Head → Prop
  | .named name _ _ => AsciiDigits name
  | _ => True

theorem OrderlyText.nonblank (h : OrderlyText deep s.rest) : OrderlyText deep s.readNonblank.2.rest :=
  (h.suffix (skipGap_suffix false s.rest s.line)).suffix s.afterGap.readRaw_suffix

theorem readHead_orderly (eofAllowed : Bool) (h : OrderlyText deep s.rest) :
    Orderly deep AsciiHead (readHead eofAllowed s) := by
  fun_induction readHead eofAllowed s with
  | case1 s e s₁ token => exact (readToken_orderly .structural eofAllowed h).of_error token
  | case2 s t s₁ token =>
    have read := (readToken_orderly .structural eofAllowed h).of_ok token
    exact ⟨trivial, read.2⟩
  | case3 s t s₁ token eof blank ih =>
    have read := (readToken_orderly .structural eofAllowed h).of_ok token
    exact ih read.2
  | case4 s t s₁ token =>
    have read := (readToken_orderly .structural eofAllowed h).of_ok token
    exact ⟨trivial, read.2⟩
  | case7 s t s₁ token =>
    have read := (readToken_orderly .structural eofAllowed h).of_ok token
    exact ⟨read.1, read.2.nonblank⟩
  | case8 s t s₁ token =>
    rw [refuse_of_token token]
    exact orderly_fail _ _ _
  | _ => exact orderly_fail _ _ _

theorem readRawValue_orderly (h : OrderlyText deep s.rest) :
    AsciiTokens (readRawValue s).1 ∧ Orderly deep (fun _ => True) (readRawValue s).2 := by
  fun_induction readRawValue s with
  | case1 s e s₁ token => exact ⟨asciiTokens_nil, (readToken_orderly .value false h).of_error token⟩
  | case2 => exact ⟨asciiTokens_nil, orderly_fail _ _ _⟩
  | case3 s t s₁ token =>
    have read := (readToken_orderly .value false h).of_ok token
    exact ⟨asciiTokens_nil, trivial, read.2⟩
  | case4 s t s₁ token =>
    have read := (readToken_orderly .value false h).of_ok token
    exact ⟨asciiTokens_nil, trivial, read.2.cons '\x7d' (by decide) (by decide)⟩
  | case5 s t s₁ token _ _ _ ts ending rest ih =>
    have read := (readToken_orderly .value false h).of_ok token
    obtain ⟨tokens, ends⟩ := ih read.2
    rw [rest] at tokens ends
    exact ⟨(asciiTokens_cons ..).mpr ⟨read.1, tokens⟩, ends⟩

theorem readLazyValue_orderly (h : OrderlyText deep s.rest) :
    Orderly deep AsciiTokens (readLazyValue s) := by
  have raw := readRawValue_orderly h
  rw [readLazyValue]
  split
  · next ts s₁ hv =>
    rw [hv] at raw
    exact ⟨raw.1.subset (List.Subset.trans (dropTrailingBlanks_subset _) (List.dropWhile_subset _)), raw.2.2⟩
  · next hv =>
    rw [hv] at raw
    exact raw.2

variable {protocols : List Protocol}

theorem readCommand_orderly {s₁ : Scanner} {name : Text} {line : Int} {after : Option Char}
    (h : OrderlyText deep s.rest) (hp : ∀ p ∈ protocols, AsciiTokens p.commands.value)
    (head : readHead false s = .ok (.named name line after) s₁) :
    Orderly deep AsciiTokens (readCommand protocols name line after s₁) := by
  have hn : AsciiDigits name := ((readHead_orderly false h).of_ok head).1
  have back := h.remains (readHead_remains _ _ _ _ _ _ head)
  rw [readCommand]
  split
  · next tokens inlined =>
    rw [inlined?_eq] at inlined
    obtain ⟨p, found, rfl⟩ := Option.map_eq_some_iff.mp inlined
    constructor
    · split at found
      · exact hp p (ProtocolFile.mem_of_findIn found)
      · cases found
    · split
      · next close =>
        rw [close] at back
        exact back
      · cases after with
        | none => exact back
        | some c => exact back.suffix (List.suffix_cons c s₁.rest)
  · have value := orderly_noted (readLazyValue_orderly back) line (.afterCommand name)
    split
    · next ts s₂ hv =>
      have value := value.of_ok hv
      have stop : AsciiTokens [⟨.terminator, [';'], s₂.line, none⟩] :=
        (asciiTokens_cons ..).mpr ⟨show AsciiDigits [';'] by decide, asciiTokens_nil⟩
      exact ⟨(asciiTokens_cons ..).mpr ⟨hn, (asciiTokens_append ..).mpr ⟨value.1, stop⟩⟩, value.2⟩
    · next hv => exact value.of_error hv

theorem readHandler_orderly (h : OrderlyText deep s.rest) (hp : ∀ p ∈ protocols, AsciiTokens p.commands.value) :
    Orderly deep AsciiTokens (readHandler protocols s) := by
  fun_induction readHandler protocols s with
  | case1 s e s₁ head => exact (readHead_orderly false h).of_error head
  | case2 s s₁ head =>
    have read := (readHead_orderly false h).of_ok head
    exact ⟨asciiTokens_nil, read.2⟩
  | case3 s s₁ head =>
    have read := (readHead_orderly false h).of_ok head
    exact ⟨asciiTokens_nil, read.2⟩
  | case8 s name line after s₁ head _ _ _ e s₂ command =>
    exact (readCommand_orderly h hp head).of_error command
  | case9 s name line after s₁ head _ _ _ ts s₂ command e s₃ rest ih =>
    have first := (readCommand_orderly h hp head).of_ok command
    exact (ih first.2).of_error rest
  | case10 s name line after s₁ head _ _ _ ts s₂ command commands s₃ rest ih =>
    have first := (readCommand_orderly h hp head).of_ok command
    have others := (ih first.2).of_ok rest
    exact ⟨(asciiTokens_append ..).mpr ⟨first.1, others.1⟩, others.2⟩
  | _ => exact orderly_fail _ _ _

theorem readParameters_orderly (protocol : Text) (names : List Text) (h : OrderlyText deep s.rest) :
    Orderly deep (fun ps => ps.length ≤ maxParameters) (readParameters protocol names s) := by
  fun_induction readParameters protocol names s with
  | case1 names s e s₁ token => exact (readToken_orderly .structural false h).of_error token
  | case3 names s t s₁ token close few =>
    exact ⟨Nat.le_of_not_lt few, ((readToken_orderly .structural false h).of_ok token).2⟩
  | case4 names s t s₁ token _ _ ih => exact ih ((readToken_orderly .structural false h).of_ok token).2
  | case6 names s t s₁ token _ _ _ _ ih => exact ih ((readToken_orderly .structural false h).of_ok token).2
  | case7 names s t s₁ token =>
    rw [refuse_of_token token]
    exact orderly_fail _ _ _
  | _ => exact orderly_fail _ _ _

theorem readSignature_orderly (name : Text) (h : OrderlyText deep s.rest) :
    Orderly deep (fun ps => ps.length ≤ maxParameters) (readSignature name s) := by
  have read := readParameters_orderly name [] h
  rw [readSignature]
  split
  · next hp => exact read.of_error hp
  · next s₁ hp =>
    obtain ⟨few, behind⟩ := read.of_ok hp
    have rest := behind.nonblank
    split
    · next brace =>
      rw [brace] at rest
      exact ⟨few, rest⟩
    · exact orderly_fail _ _ _

end Scanner

variable {deep : Prop}

open Scanner (OrderlyText)

theorem ProtocolFile.readOpening_orderly (name : Text) (after : Option Char) {s : Scanner} (h : OrderlyText deep s.rest) :
    Scanner.Orderly deep (fun ps => ps.length ≤ maxParameters) (readOpening name after s) := by
  rw [readOpening]
  split
  · exact Scanner.readSignature_orderly name h
  · exact ⟨Nat.zero_le _, h⟩

/-- The computation gives a value of this kind, or it fails in a way that was foreseen. -/
def Orderly {α : Type} (deep : Prop) (Q : α → Prop) : Except Failure α → Prop
  | .ok a => Q a
  | .error e => e.Foreseen deep

section

variable {α β : Type} {Q R : α → Prop} {S : β → Prop}

theorem Orderly.mono {r : Except Failure α} (h : Orderly deep Q r) (weaker : ∀ a, Q a → R a) : Orderly deep R r := by
  cases r with
  | ok a => exact weaker a h
  | error e => exact h

theorem Orderly.bind {r : Except Failure α} {f : α → Except Failure β} (h : Orderly deep Q r)
    (step : ∀ a, Q a → Orderly deep S (f a)) : Orderly deep S (r >>= f) := by
  cases r with
  | ok a => exact step a h
  | error e => exact h

theorem Orderly.map {r : Except Failure α} {g : α → β} (h : Orderly deep Q r) (step : ∀ a, Q a → S (g a)) :
    Orderly deep S (r.map g) := by
  cases r with
  | ok a => exact step a h
  | error e => exact h

theorem Orderly.mapFault {r : Except Failure α} (h : Orderly deep Q r) (g : Fault → Fault) :
    Orderly deep Q (r.mapError (·.mapFault g)) := by
  cases r with
  | ok a => exact h
  | error e => exact Failure.Foreseen.mapFault h g

theorem Orderly.of_faults {ε : Type} {r : Except ε α} (fault : ε → Fault) (h : ∀ a, r = .ok a → Q a) :
    Orderly deep Q (r.mapError fun e => .fault (fault e)) := by
  cases r with
  | ok a => exact h a rfl
  | error e => trivial

namespace Traced

theorem orderly_fault (cause : Cause) (line : Int) (file : Option Text) :
    Orderly deep Q (fault cause line file : Traced α).result := trivial

theorem orderly_bind {x : Traced α} {f : α → Traced β} (h : Orderly deep Q x.result)
    (step : ∀ a, Q a → Orderly deep S (f a).result) : Orderly deep S (x >>= f).result := by
  rw [result_bind]
  exact h.bind step

theorem orderly_flatMap {f : α → Traced (List β)} (as : List α)
    (step : ∀ a ∈ as, Orderly deep (fun bs => ∀ b ∈ bs, S b) (f a).result) :
    Orderly deep (fun bs => ∀ b ∈ bs, S b) (flatMap f as).result := by
  induction as with
  | nil => exact fun _ hb => absurd hb (List.not_mem_nil)
  | cons a as ih =>
    rw [List.forall_mem_cons] at step
    refine orderly_bind step.1 fun front hf => orderly_bind (ih step.2) fun back hb => ?_
    exact List.forall_mem_append.mpr ⟨hf, hb⟩

theorem orderly_forAll {f : α → Traced β} (as : List α) (step : ∀ a ∈ as, Orderly deep (fun _ => True) (f a).result) :
    Orderly deep (fun _ => True) (forAll f as).result := by
  induction as with
  | nil => trivial
  | cons a as ih =>
    rw [List.forall_mem_cons] at step
    exact orderly_bind step.1 fun b _ => orderly_bind (ih step.2) fun bs _ => trivial

end Traced
end

theorem escapeQuotes_subset (t : Text) : escapeQuotes t ⊆ '\\' :: t := by
  fun_induction escapeQuotes t with
  | case1 => simp
  | case2 => simp
  | case3 c cs ih | case4 cs ih | case5 c cs _ _ _ ih => grind

theorem asciiDigits_escapeQuotes (t : Text) (h : AsciiDigits t) : AsciiDigits (escapeQuotes t) :=
  ((asciiDigits_cons ..).mpr ⟨by decide, h⟩).subset (escapeQuotes_subset t)

theorem asciiTokens_quotedString (line : Int) (pending : Option Text) (h : AsciiDigits (pending.getD [])) :
    AsciiTokens (quotedString line pending) := by
  cases pending with
  | none => exact asciiTokens_nil
  | some text => exact (asciiTokens_cons ..).mpr ⟨h, asciiTokens_nil⟩

theorem asciiTokens_quotePieces (line : Int) (pending : Option Text) (ts : List Token)
    (hp : AsciiDigits (pending.getD [])) (h : AsciiTokens ts) : AsciiTokens (quotePieces line pending ts) := by
  induction ts generalizing pending with
  | nil => exact asciiTokens_quotedString line pending hp
  | cons t ts ih =>
    rw [asciiTokens_cons] at h
    rw [quotePieces]
    split
    · rw [asciiTokens_append, asciiTokens_cons]
      exact ⟨asciiTokens_quotedString line pending hp, h.1, ih none asciiDigits_nil h.2⟩
    · split
      · exact ih pending hp h.2
      · exact ih _ ((asciiDigits_append ..).mpr ⟨hp, asciiDigits_escapeQuotes t.text h.1⟩) h.2

theorem asciiTokens_quoteTokens (ts : List Token) (line : Int) (h : AsciiTokens ts) :
    AsciiTokens (quoteTokens ts line) := by
  have pieces := asciiTokens_quotePieces line none ts asciiDigits_nil h
  rw [quoteTokens]
  split
  · exact (asciiTokens_cons ..).mpr ⟨asciiDigits_nil, asciiTokens_nil⟩
  · exact pieces

namespace Protocol

/-- The digits in all values of the protocol, and in what its parameters stand for, are in the ASCII range. There are no
more parameters than may be. -/
structure Ascii (p : Protocol) : Prop where
  commands : AsciiTokens p.commands.value
  bindings : ∀ b ∈ p.bindings, AsciiTokens b.value
  slots : ∀ i v, p.slot i = some v → AsciiDigits v
  few : p.parameters.length ≤ maxParameters

variable {p : Protocol}

theorem decimalValue?_lt (c : Char) (n : Nat) (h : decimalValue? c = some n) : n < 10 := by
  unfold decimalValue? at h
  dsimp only at h
  split at h
  · split at h
    · next within =>
      simp only [Bool.and_eq_true, decide_eq_true_eq] at within
      cases h
      omega
    · cases h
  · obtain ⟨z, found, rfl⟩ := Option.map_eq_some_iff.mp h
    have within := List.find?_some found
    simp only [Bool.and_eq_true, decide_eq_true_eq] at within
    omega

theorem parameterIndex_orderly (few : p.parameters.length ≤ maxParameters) (name : Text) (h : AsciiDigits name) :
    Orderly deep (fun index => ∀ i, index = some i → i ≤ maxParameters) (p.parameterIndex name) := by
  have named (i : Nat) (found : (p.parameters.idxOf? name).map (· + 1) = some i) : i ≤ maxParameters := by
    obtain ⟨m, position, rfl⟩ := Option.map_eq_some_iff.mp found
    obtain ⟨inside, -⟩ := List.idxOf?_eq_some_iff.mp position
    omega
  unfold parameterIndex
  split
  · next c =>
    split
    · next digit =>
      obtain ⟨n, value⟩ := Option.isSome_iff_exists.mp (((asciiDigits_cons ..).mp h).1.decimal digit).2
      rw [value]
      rintro i ⟨⟩
      exact Nat.le_of_lt_succ (decimalValue?_lt c _ value)
    · exact named
  · exact named

theorem resolve_orderly (hp : p.Ascii) (t : Token) (h : AsciiDigits t.text) :
    Orderly deep AsciiTokens (p.resolve t).result := by
  rw [resolve]
  refine Traced.orderly_bind (parameterIndex_orderly hp.few t.text h) fun index within => ?_
  cases index with
  | some i =>
    dsimp only
    rw [if_neg (Nat.not_lt_of_le (within i rfl))]
    split
    · exact Traced.orderly_fault _ _ _
    · next v hv =>
      have slot := hp.slots i v hv
      split
      · exact (asciiTokens_cons ..).mpr ⟨asciiDigits_escapeQuotes v slot, asciiTokens_nil⟩
      · exact (asciiTokens_cons ..).mpr ⟨slot, asciiTokens_nil⟩
  | none =>
    rw [Traced.result_bind, consult_result]
    cases found : p.lookup t.text with
    | none => exact Traced.orderly_fault _ _ _
    | some b =>
      have value := hp.bindings b (p.mem_of_lookup t.text b found)
      show AsciiTokens (if t.isQuoted then quoteTokens b.value b.line else b.value)
      split
      · exact asciiTokens_quoteTokens b.value b.line value
      · exact value

theorem settleAfter_orderly (hp : p.Ascii) (front ts : List Token) (hf : AsciiTokens front) (h : AsciiTokens ts) :
    Orderly deep AsciiTokens (p.settleAfter front ts).result := by
  induction ts generalizing front with
  | nil => exact hf
  | cons t ts ih =>
    rw [asciiTokens_cons] at h
    have kept : AsciiTokens (front ++ [t]) :=
      (asciiTokens_append ..).mpr ⟨hf, (asciiTokens_cons ..).mpr ⟨h.1, asciiTokens_nil⟩⟩
    rw [settleAfter]
    split
    · refine Traced.orderly_bind (parameterIndex_orderly hp.few t.text h.1) fun i _ => ?_
      cases i with
      | some i => exact ih _ kept h.2
      | none =>
        refine Traced.orderly_bind (resolve_orderly hp t h.1) fun value hv => ?_
        exact ih _ ((asciiTokens_append ..).mpr ⟨hf, hv⟩) h.2
    · split
      · exact ih front hf h.2
      · exact ih _ kept h.2

theorem settle_orderly (hp : p.Ascii) (ts : List Token) (h : AsciiTokens ts) :
    Orderly deep AsciiTokens (p.settle ts).result := by
  refine Traced.orderly_bind (settleAfter_orderly hp [] ts asciiTokens_nil h) fun value hv => ?_
  exact hv.subset (dropTrailingBlanks_subset value)

theorem Ascii.touch (hp : p.Ascii) (uses : List Use) : (p.touch uses).Ascii := by
  refine ⟨hp.commands, ?_, hp.slots, hp.few⟩
  intro b hb
  obtain ⟨c, hc, rfl⟩ := List.mem_map.mp hb
  exact hp.bindings c hc

theorem assign_slot (p : Protocol) (name : Text) (line : Int) (value : List Token) :
    (p.assign name line value).slot = p.slot := by
  funext i
  simp only [assign, declare]
  cases i <;> split <;> rfl

theorem Ascii.assign (hp : p.Ascii) (name : Text) (line : Int) (value : List Token) (h : AsciiTokens value) :
    (p.assign name line value).Ascii where
  commands := by
    rw [assign_commands]
    exact hp.commands
  bindings := by
    intro b hb
    rcases p.value_of_mem_assign name line value b hb with ⟨-, same⟩ | hb
    · rw [same]
      exact h
    · exact hp.bindings b hb
  slots := by
    rw [assign_slot]
    exact hp.slots
  few := by
    rw [assign_parameters]
    exact hp.few

theorem Ascii.addCommands (hp : p.Ascii) (ts : List Token) (h : AsciiTokens ts) : (p.addCommands ts).Ascii :=
  ⟨(asciiTokens_append ..).mpr ⟨hp.commands, h⟩, hp.bindings, hp.slots, hp.few⟩

theorem Ascii.copy (hp : p.Ascii) (name : Text) (line : Int) (arguments : List Text) (hn : AsciiDigits name)
    (ha : ∀ a ∈ arguments, AsciiDigits a) : (p.copy name line arguments).Ascii where
  commands := by
    simp only [Protocol.copy]
    split <;> exact hp.commands
  bindings := hp.bindings
  slots := by
    intro i v hv
    cases i with
    | zero =>
      cases hv
      exact hn
    | succ i =>
      rw [slot] at hv
      split at hv
      · exact ha v (List.mem_of_mem_take (List.mem_of_getElem? hv))
      · cases hv
  few := hp.few

theorem readAssignment_orderly (hp : p.Ascii) (name : Text) (line : Int) {s : Scanner} (h : OrderlyText deep s.rest) :
    (p.readAssignment name line s).1.Ascii ∧ Scanner.Orderly deep (fun _ => True) (p.readAssignment name line s).2 := by
  obtain ⟨tokens, ends⟩ := Scanner.readRawValue_orderly h
  have settled : Orderly deep AsciiTokens (p.settle s.readRawValue.1).result := settle_orderly hp s.readRawValue.1 tokens
  have touched := hp.touch (p.settle s.readRawValue.1).uses
  simp only [readAssignment]
  split
  · next failed =>
    rw [failed] at settled
    exact ⟨touched, settled.mapFault _⟩
  · next failed =>
    exact ⟨touched, (ends.of_error failed).mapFault _⟩
  · next ok ended =>
    rw [ok] at settled
    exact ⟨touched.assign name line _ settled, trivial, (ends.of_ok ended).2⟩

end Protocol

theorem Scanner.readBody_orderly {protocols : List Protocol} {p : Protocol} {s : Scanner}
    (hps : ∀ q ∈ protocols, AsciiTokens q.commands.value) (hp : p.Ascii) (h : OrderlyText deep s.rest) :
    Orderly deep Protocol.Ascii (readBody protocols p s) := by
  fun_induction readBody protocols p s with
  | case1 p s e s₁ head => exact (readHead_orderly false h).of_error head
  | case2 p s s₁ head => exact ⟨hp, ((readHead_orderly false h).of_ok head).2⟩
  | case3 p s s₁ head => exact ⟨hp, ((readHead_orderly false h).of_ok head).2⟩
  | case5 p s name line s₁ plain q e s₂ assignment head =>
    have read := (readHead_orderly false h).of_ok head
    have assigned := (Protocol.readAssignment_orderly hp name line read.2).2
    rw [assignment] at assigned
    exact assigned
  | case6 p s name line s₁ plain q s₂ assignment head ih =>
    have read := (readHead_orderly false h).of_ok head
    have assigned := Protocol.readAssignment_orderly hp name line read.2
    rw [assignment] at assigned
    exact ih assigned.1 assigned.2.2
  | case7 p s name line s₁ handler e s₂ block head =>
    have read := (readHead_orderly false h).of_ok head
    exact (orderly_noted (readHandler_orderly read.2 hps) line (.inHandler name)).of_error block
  | case8 p s name line s₁ handler ts s₂ block head _ ih =>
    have read := (readHead_orderly false h).of_ok head
    have commands := (orderly_noted (readHandler_orderly read.2 hps) line (.inHandler name)).of_ok block
    exact ih (hp.assign name line ts commands.1) commands.2
  | case11 p s name line after s₁ head _ _ _ e s₂ command =>
    exact (readCommand_orderly h hps head).of_error command
  | case12 p s name line after s₁ head _ _ _ ts s₂ command ih =>
    have tokens := (readCommand_orderly h hps head).of_ok command
    exact ih (hp.addCommands ts tokens.1) tokens.2
  | _ => exact orderly_fail _ _ _

namespace ProtocolFile

open Scanner (readHead_orderly readHandler_orderly orderly_noted)

structure Ascii (f : ProtocolFile) : Prop where
  globals : f.globals.Ascii
  protocols : ∀ p ∈ f.protocols, p.Ascii

variable {f : ProtocolFile} {s : Scanner}

theorem Ascii.commands (hf : f.Ascii) : ∀ p ∈ f.protocols, AsciiTokens p.commands.value :=
  fun p mem => (hf.protocols p mem).commands

theorem readDefinition_orderly (hf : f.Ascii) (name : Text) (line : Int) (parameters : List Text)
    (hn : AsciiDigits name) (few : parameters.length ≤ maxParameters) (h : OrderlyText deep s.rest) :
    Scanner.Orderly deep Protocol.Ascii (f.readDefinition name line parameters s) := by
  rw [readDefinition]
  split
  · exact orderly_noted (Scanner.orderly_fail _ _ _) _ _
  · have copied := hf.globals.copy name line [] hn (by simp)
    have template : ({ f.globals.copy name line [] with parameters := parameters } : Protocol).Ascii :=
      ⟨copied.commands, copied.bindings, copied.slots, few⟩
    exact orderly_noted (Scanner.readBody_orderly hf.commands template h) _ _

theorem readStatements_orderly (hf : f.Ascii) (h : OrderlyText deep s.rest) :
    (f.readStatements s).1.Ascii ∧ ∀ e, (f.readStatements s).2 = some e → e.Foreseen deep := by
  fun_induction readStatements f s with
  | case1 f s e s₁ head =>
    refine ⟨hf, ?_⟩
    rintro _ ⟨⟩
    exact (readHead_orderly true h).of_error head
  | case2 => exact ⟨⟨hf.globals, hf.protocols⟩, by simp⟩
  | case5 f s name line s₁ plain p e s₂ assignment head =>
    have read := (readHead_orderly true h).of_ok head
    have assigned := Protocol.readAssignment_orderly hf.globals name line read.2
    rw [assignment] at assigned
    refine ⟨⟨assigned.1, hf.protocols⟩, ?_⟩
    rintro _ ⟨⟩
    exact assigned.2
  | case6 f s name line s₁ plain p s₂ assignment head ih =>
    have read := (readHead_orderly true h).of_ok head
    have assigned := Protocol.readAssignment_orderly hf.globals name line read.2
    rw [assignment] at assigned
    exact ih ⟨assigned.1, hf.protocols⟩ assigned.2.2
  | case7 f s name line s₁ handler e s₂ block head =>
    have read := (readHead_orderly true h).of_ok head
    refine ⟨hf, ?_⟩
    rintro _ ⟨⟩
    exact (orderly_noted (readHandler_orderly read.2 hf.commands) line (.inHandler name)).of_error block
  | case8 f s name line s₁ handler ts s₂ block head _ ih =>
    have read := (readHead_orderly true h).of_ok head
    have commands := (orderly_noted (readHandler_orderly read.2 hf.commands) line (.inHandler name)).of_ok block
    exact ih ⟨hf.globals.assign name line ts commands.1, hf.protocols⟩ commands.2
  | case10 f s name line after s₁ head _ _ _ e s₂ opening =>
    have read := (readHead_orderly true h).of_ok head
    refine ⟨hf, ?_⟩
    rintro _ ⟨⟩
    exact (readOpening_orderly name after read.2).of_error opening
  | case11 f s name line after s₁ head _ _ _ parameters s₂ opening e s₃ definition =>
    have read := (readHead_orderly true h).of_ok head
    have opened := (readOpening_orderly name after read.2).of_ok opening
    refine ⟨hf, ?_⟩
    rintro _ ⟨⟩
    exact (readDefinition_orderly hf name line parameters read.1 opened.1 opened.2).of_error definition
  | case12 f s name line after s₁ head _ _ _ parameters s₂ opening p s₃ definition ih =>
    have read := (readHead_orderly true h).of_ok head
    have opened := (readOpening_orderly name after read.2).of_ok opening
    have defined := (readDefinition_orderly hf name line parameters read.1 opened.1 opened.2).of_ok definition
    exact ih ⟨hf.globals, List.forall_mem_append.mpr ⟨hf.protocols, by simpa using defined.1⟩⟩ defined.2
  | _ =>
    refine ⟨hf, ?_⟩
    rintro _ ⟨⟩
    trivial

theorem empty_ascii (file : Option Text) : (empty file).Ascii := by
  have globals : ({ file := file } : Protocol).Ascii := by
    refine ⟨asciiTokens_nil, by simp, ?_, Nat.zero_le _⟩
    intro i v hv
    cases i with
    | zero => cases hv
    | succ i => simp [Protocol.slot] at hv
  exact ⟨globals, by simp [empty]⟩

theorem ofSource_orderly (source : Text) (file : Option Text) (h : AsciiDigits source) :
    Orderly (Scanner.Nested source) Ascii (ofSource source file) := by
  have run := readStatements_orderly (s := .ofSource source) (empty_ascii file) ⟨h, id⟩
  rw [ofSource, read]
  cases result : (empty file).readStatements (.ofSource source) with
  | mk f failure =>
    rw [result] at run
    cases failure with
    | none => exact run.1
    | some e => exact (run.2 e rfl).mapFault _

end ProtocolFile
end DeviceProtocol
