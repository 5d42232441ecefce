import Mathlib.Data.List.Basic
import DeviceProtocol.Compile.Variables
import DeviceProtocol.ProtocolFile.Read
import DeviceProtocol.Proofs.Success
set_option autoImplicit false

/-!
Two ways to read the number in a variable: by a reference to it, as in an argument of a command, and as the whole
of its value, as the host asks for it. The first joins the texts of the tokens as they are written, the second
puts arguments in the places of parameters and takes no blanks inside the number. Both are described here as the
reading of one text, and so is where they agree.
-/
namespace DeviceProtocol

/-- The texts of tokens without the blanks between them. -/
def Token.joined (ts : List Token) : Text := (ts.filter fun t => !t.isBlank).flatMap Token.text

def Text.number? (text : Text) : Option Nat :=
  match text.integer with
  | .ok (some (value, length)) => if 0 ≤ value ∧ length = text.length then some value.toNat else none
  | .ok none | .error _ => none

theorem Arguments.atEnd_skipBlanks (a : Arguments) : a.skipBlanks.atEnd = a.rest.all Token.isBlank := by
  obtain ⟨taken, rest⟩ := a
  simp only [atEnd, skipBlanks, advance]
  induction rest with
  | nil => rfl
  | cons t ts ih => cases h : t.isBlank <;> simp_all

namespace Protocol

theorem numberValue_eq_ok_iff (text : Text) (limit : Int) (n : Nat) :
    numberValue text limit = .ok n ↔ text.number? = some n ∧ (n : Int) ≤ limit := by
  unfold numberValue Text.number?
  cases text.integer with
  | error e => simp [bind, Except.bind]
  | ok literal =>
    cases literal with
    | none => simp [bind, Except.bind]
    | some read =>
      obtain ⟨value, length⟩ := read
      dsimp only [bind, Except.bind]
      split
      · simp; omega
      · split
        · simp_all
        · split
          · simp; omega
          · simp [pure, Except.pure]; omega

/-- What a reference contributes to a number: the argument of a parameter, or else the value of a variable as it is
written. -/
def referenceText (p : Protocol) (name : Text) (quoted : Bool) : Option Text :=
  match p.parameterIndex name with
  | .ok (some i) => (p.slot i).map fun value => if quoted then escapeQuotes value else value
  | .ok none => (p.lookup name).map fun b =>
      Token.joined (if quoted then quoteTokens b.value b.line else b.value)
  | .error _ => none

/-- The text of a number that takes all of the tokens but the blanks at their end. -/
def reading (p : Protocol) : List Token → Option Text
  | [] => some []
  | t :: ts =>
    if t.kind = .reference then do
      let front ← p.referenceText t.text t.isQuoted
      let back ← p.reading ts
      return front ++ back
    else if t.isNumeric then (p.reading ts).map (t.text ++ ·)
    else if (t :: ts).all Token.isBlank then some []
    else none

theorem consult_result (p : Protocol) (name : Text) : (p.consult name).result = .ok (p.lookup name) := by
  unfold consult
  cases p.lookup name <;> rfl

theorem resolve_joined_iff (p : Protocol) (t : Token) (text : Text) :
    (∃ value, (p.resolve t).result = .ok value ∧ Token.joined value = text) ↔
      p.referenceText t.text t.isQuoted = some text := by
  unfold resolve referenceText
  cases p.parameterIndex t.text with
  | error e =>
    rw [Traced.bind_of_error _ _ e rfl]
    simp
  | ok index =>
    rw [Traced.bind_of_ok _ _ index rfl]
    cases index with
    | some i =>
      dsimp only
      split
      · next outside => simp [p.slot_of_lt i outside]
      · cases p.slot i with
        | none => simp [Traced.fault]
        | some value =>
          cases t.isQuoted <;> simp [Token.joined, Token.isBlank, Token.isSpecial]
    | none =>
      dsimp only
      rw [Traced.bind_of_ok _ _ _ (p.consult_result t.text)]
      cases p.lookup t.text with
      | none => simp [Traced.fault]
      | some b => simp

theorem numberText_reading_iff (p : Protocol) (ts : List Token) (text : Text) :
    (∃ count, (p.numberText ts).result = .ok (text, count) ∧ (ts.drop count).all Token.isBlank = true) ↔
      p.reading ts = some text := by
  -- the text ends at the first token that is neither a reference nor a part of a number; a reading asks in
  -- addition that only blanks follow from there on
  induction ts generalizing text with
  | nil => simp [numberText, reading]
  | cons t ts ih =>
    unfold numberText reading
    split
    · constructor
      · rintro ⟨count, h, blank⟩
        obtain ⟨value, hv, h⟩ := (Traced.bind_eq_ok_iff _ _ _).mp h
        obtain ⟨⟨back, count'⟩, hn, h⟩ := (Traced.bind_eq_ok_iff _ _ _).mp h
        cases h
        have hf := (p.resolve_joined_iff t _).mp ⟨value, hv, rfl⟩
        have hr := (ih back).mp ⟨count', hn, blank⟩
        simp [hf, hr, Token.joined]
      · intro h
        obtain ⟨front, hf, h⟩ := Option.bind_eq_some_iff.mp h
        obtain ⟨back, hr, h⟩ := Option.bind_eq_some_iff.mp h
        cases h
        obtain ⟨value, hv, rfl⟩ := (p.resolve_joined_iff t front).mpr hf
        obtain ⟨count, hn, blank⟩ := (ih back).mpr hr
        refine ⟨count + 1, ?_, blank⟩
        rw [Traced.bind_of_ok _ _ value hv, Traced.bind_of_ok _ _ _ hn]
        rfl
    · split
      · constructor
        · rintro ⟨count, h, blank⟩
          obtain ⟨⟨back, count'⟩, hn, h⟩ := (Traced.bind_eq_ok_iff _ _ _).mp h
          cases h
          rw [(ih back).mp ⟨count', hn, blank⟩]
          rfl
        · intro h
          obtain ⟨back, hr, rfl⟩ := Option.map_eq_some_iff.mp h
          obtain ⟨count, hn, blank⟩ := (ih back).mpr hr
          refine ⟨count + 1, ?_, blank⟩
          rw [Traced.bind_of_ok _ _ _ hn]
          rfl
      · constructor
        · rintro ⟨count, h, blank⟩
          cases h
          exact if_pos blank
        · intro h
          split at h
          · rename_i blank
            cases h
            exact ⟨0, rfl, blank⟩
          · cases h

theorem compileNumber_eq_ok_iff (p : Protocol) (a b : Arguments) (limit : Int) (n : Nat) :
    (p.compileNumber a limit).result = .ok (n, b) ↔
      ∃ text count, (p.numberText a.rest).result = .ok (text, count) ∧ text.number? = some n ∧
        (n : Int) ≤ limit ∧ b = a.advance count := by
  unfold compileNumber
  rw [Traced.bind_eq_ok_iff]
  constructor
  · rintro ⟨⟨text, count⟩, ht, h⟩
    obtain ⟨m, hm, h⟩ := (Traced.bind_eq_ok_iff _ _ _).mp h
    cases h
    obtain ⟨hn, hl⟩ := (numberValue_eq_ok_iff text limit n).mp ((Traced.located_eq_ok_iff _ _ _ _).mp hm)
    exact ⟨text, count, ht, hn, hl, rfl⟩
  · rintro ⟨text, count, ht, hn, hl, rfl⟩
    have value := (numberValue_eq_ok_iff text limit n).mpr ⟨hn, hl⟩
    refine ⟨(text, count), ht, ?_⟩
    dsimp only
    rw [Traced.bind_of_ok _ _ n ((Traced.located_eq_ok_iff _ _ _ _).mpr value)]
    rfl

theorem numberVariable_eq_ok_iff (p : Protocol) (name : Text) (b : Binding) (limit : Int) (n : Nat)
    (bound : p.lookup name = some b) :
    (p.numberVariable name limit).result = .ok (some n) ↔
      (p.reading b.value).bind Text.number? = some n ∧ (n : Int) ≤ limit := by
  unfold numberVariable
  rw [Traced.bind_of_ok _ _ _ (p.consult_result name), bound]
  constructor
  · intro h
    obtain ⟨⟨m, a⟩, hm, h⟩ := (Traced.bind_eq_ok_iff _ _ _).mp h
    rw [Traced.mapFault_eq_ok_iff, compileNumber_eq_ok_iff] at hm
    obtain ⟨text, count, ht, hn, hl, rfl⟩ := hm
    dsimp only at h
    split at h
    · rename_i done
      cases h
      rw [Arguments.atEnd_skipBlanks] at done
      rw [(p.numberText_reading_iff b.value text).mp ⟨count, ht, done⟩]
      exact ⟨hn, hl⟩
    · exact absurd h (Traced.fault_ne_ok _ _ _ _)
  · rintro ⟨h, hl⟩
    obtain ⟨text, hr, hn⟩ := Option.bind_eq_some_iff.mp h
    obtain ⟨count, ht, blank⟩ := (p.numberText_reading_iff b.value text).mpr hr
    have hm := (p.compileNumber_eq_ok_iff (.ofTokens b.value) _ limit n).mpr ⟨text, count, ht, hn, hl, rfl⟩
    have done : ((Arguments.ofTokens b.value).advance count).skipBlanks.atEnd = true := by
      rw [Arguments.atEnd_skipBlanks]
      exact blank
    dsimp only
    rw [Traced.bind_of_ok _ _ _ ((Traced.mapFault_eq_ok_iff _ _ _).mpr hm)]
    dsimp only
    rw [if_pos done]
    rfl

theorem compileNumber_reference_iff (p : Protocol) (name : Text) (line limit : Int) (n : Nat) :
    (∃ a, (p.compileNumber (.ofTokens [⟨.reference, name, line, none⟩]) limit).result = .ok (n, a)) ↔
      (p.referenceText name false).bind Text.number? = some n ∧ (n : Int) ≤ limit := by
  constructor
  · rintro ⟨a, h⟩
    obtain ⟨text, count, htext, hn, hl, -⟩ := (p.compileNumber_eq_ok_iff _ a limit n).mp h
    obtain ⟨value, hv, h⟩ := (Traced.bind_eq_ok_iff _ _ _).mp htext
    cases h
    rw [List.append_nil] at hn
    have hr : p.referenceText name false = some (Token.joined value) :=
      (p.resolve_joined_iff ⟨.reference, name, line, none⟩ _).mp ⟨value, hv, rfl⟩
    rw [hr]
    exact ⟨hn, hl⟩
  · rintro ⟨h, hl⟩
    obtain ⟨text, hr, hn⟩ := Option.bind_eq_some_iff.mp h
    obtain ⟨value, hv, rfl⟩ := (p.resolve_joined_iff ⟨.reference, name, line, none⟩ text).mpr hr
    refine ⟨_, (p.compileNumber_eq_ok_iff _ _ limit n).mpr ⟨Token.joined value ++ [], 1, ?_, ?_, hl, rfl⟩⟩
    · exact Traced.bind_of_ok _ _ value hv
    · rwa [List.append_nil]

/-- A reference to the name and the variable itself give the same numbers, whatever the limit. -/
def NumbersAgree (p : Protocol) (name : Text) : Prop :=
  ∀ (line limit : Int) (n : Nat),
    (∃ a, (p.compileNumber (.ofTokens [⟨.reference, name, line, none⟩]) limit).result = .ok (n, a)) ↔
      (p.numberVariable name limit).result = .ok (some n)

theorem numbersAgree_iff_text (p : Protocol) (name : Text) (b : Binding) (bound : p.lookup name = some b) :
    p.NumbersAgree name ↔
      (p.referenceText name false).bind Text.number? = (p.reading b.value).bind Text.number? := by
  unfold NumbersAgree
  simp only [compileNumber_reference_iff, p.numberVariable_eq_ok_iff name b _ _ bound]
  constructor
  · intro h
    refine Option.ext fun n => ?_
    simpa using h 0 n n
  · intro h line limit n
    rw [h]

theorem referenceText_argument (p : Protocol) (name : Text) (i : Nat)
    (h : p.parameterIndex name = .ok (some i)) : p.referenceText name false = p.slot i := by
  simp [referenceText, h]

theorem referenceText_variable (p : Protocol) (name : Text) (b : Binding)
    (h : p.parameterIndex name = .ok none) (bound : p.lookup name = some b) :
    p.referenceText name false = some (Token.joined b.value) := by
  simp [referenceText, h, bound]

/-- The token contributes its own text to a number: it is a part of one as it stands, or a reference to a text that
is the same as its name. -/
def StandsForItself (p : Protocol) (t : Token) : Prop :=
  t.isNumeric = true ∨ t.kind = .reference ∧ p.referenceText t.text t.isQuoted = some t.text

theorem StandsForItself.not_blank {p : Protocol} {t : Token} (h : p.StandsForItself t) :
    t.isBlank = false := by
  have hk : t.kind ≠ .special := by
    rcases h with h | ⟨h, -⟩
    · simp only [Token.isNumeric, Bool.and_eq_true, beq_iff_eq] at h
      simp [h.1]
    · simp [h]
  simp [Token.isBlank, Token.isSpecial, hk]

theorem reading_blank (p : Protocol) (t : Token) (ts : List Token) (h : t.isBlank = true) :
    p.reading (t :: ts) = if (t :: ts).all Token.isBlank then some [] else none := by
  have hk : t.kind = .special := by
    simp only [Token.isBlank, Token.isSpecial, Bool.and_eq_true, beq_iff_eq] at h
    exact h.1
  rw [reading, if_neg (by simp [hk]), if_neg (by simp [Token.isNumeric, hk])]

theorem reading_blanks (p : Protocol) (blanks : List Token) (h : ∀ t ∈ blanks, t.isBlank = true) :
    p.reading blanks = some [] := by
  cases blanks with
  | nil => rfl
  | cons t ts => rw [reading_blank p t ts (h t (List.mem_cons_self ..)), if_pos (List.all_eq_true.mpr h)]

theorem reading_eq_joined (p : Protocol) (ts blanks : List Token) (own : ∀ t ∈ ts, p.StandsForItself t)
    (hb : ∀ t ∈ blanks, t.isBlank = true) :
    p.reading (ts ++ blanks) = some (Token.joined (ts ++ blanks)) := by
  induction ts with
  | nil =>
    have hj : Token.joined blanks = [] := by simp_all [Token.joined, List.filter_eq_nil_iff.mpr]
    rw [List.nil_append, reading_blanks p blanks hb, hj]
  | cons t ts ih =>
    rw [List.forall_mem_cons] at own
    have hj : Token.joined (t :: (ts ++ blanks)) = t.text ++ Token.joined (ts ++ blanks) := by
      simp [Token.joined, own.1.not_blank]
    rw [List.cons_append, reading, ih own.2, hj]
    split
    · rename_i hk
      obtain hn | ⟨-, hr⟩ := own.1
      · simp [Token.isNumeric, hk] at hn
      · rw [hr]
        rfl
    · rename_i hk
      obtain hn | ⟨hr, -⟩ := own.1
      · rw [if_pos hn]
        rfl
      · exact absurd hr hk

theorem reading_of_gap (p : Protocol) (ts rest : List Token) (blank t : Token) (hblank : blank.isBlank = true)
    (hmem : t ∈ rest) (ht : t.isBlank = false) : p.reading (ts ++ blank :: rest) = none := by
  have open_end (us : List Token) : ¬ (us ++ blank :: rest).all Token.isBlank = true := by
    intro h
    have := List.all_eq_true.mp h t (by simp [hmem])
    simp [ht] at this
  induction ts with
  | nil =>
    rw [List.nil_append, reading_blank p blank rest hblank]
    exact if_neg (open_end [])
  | cons u ts ih =>
    rw [List.cons_append, reading, ih]
    split
    · cases p.referenceText u.text u.isQuoted <;> rfl
    · split
      · rfl
      · exact if_neg (open_end (u :: ts))

theorem reading_parameter (p : Protocol) (name : Text) (line : Int) (i : Nat)
    (h : p.parameterIndex name = .ok (some i)) :
    p.reading [⟨.reference, name, line, none⟩] = p.slot i := by
  rw [reading, if_pos rfl, reading]
  show (p.referenceText name false).bind _ = _
  rw [p.referenceText_argument name i h]
  cases p.slot i <;> simp

/-- A reference and the variable itself give the same numbers exactly if what the reference contributes and the
reading of the value denote the same number, or none. For a name that is no parameter, this is so where each token
stands for itself and blanks come only at the end. A value that is nothing but a parameter gives the name of the
parameter to the reference and the argument to the variable, and a value with a blank inside is a number for the
reference only. -/
theorem numbersAgree_iff (p : Protocol) (name : Text) (b : Binding) (bound : p.lookup name = some b) :
    (p.NumbersAgree name ↔
      (p.referenceText name false).bind Text.number? = (p.reading b.value).bind Text.number?) ∧
    (p.parameterIndex name = .ok none →
      (∀ ts blanks, b.value = ts ++ blanks → (∀ t ∈ ts, p.StandsForItself t) →
        (∀ t ∈ blanks, t.isBlank = true) → p.NumbersAgree name) ∧
      (∀ parameter line i, b.value = [⟨.reference, parameter, line, none⟩] →
        p.parameterIndex parameter = .ok (some i) →
        (p.NumbersAgree name ↔ parameter.number? = (p.slot i).bind Text.number?)) ∧
      (∀ ts blank rest t, b.value = ts ++ blank :: rest → blank.isBlank = true → t ∈ rest →
        t.isBlank = false → (p.NumbersAgree name ↔ (Token.joined b.value).number? = none))) := by
  refine ⟨p.numbersAgree_iff_text name b bound, fun own => ?_⟩
  rw [p.numbersAgree_iff_text name b bound, p.referenceText_variable name b own bound, Option.bind_some]
  refine ⟨?_, ?_, ?_⟩
  · intro ts blanks hvalue hts hblanks
    rw [hvalue, p.reading_eq_joined ts blanks hts hblanks, Option.bind_some]
  · intro parameter line i hvalue hi
    have hj : Token.joined b.value = parameter := by simp [hvalue, Token.joined, Token.isBlank, Token.isSpecial]
    rw [hj, hvalue, p.reading_parameter parameter line i hi]
  · intro ts blank rest t hvalue hblank hmem ht
    have hr : p.reading b.value = none := hvalue ▸ p.reading_of_gap ts rest blank t hblank hmem ht
    rw [hr, Option.bind_none]

/-- Digits, then a parameter whose argument is its own number, then a blank. -/
theorem numbersAgree_iff_itself :
    let value : List Token := [⟨.word, ['1'], 1, none⟩, ⟨.reference, ['2'], 1, none⟩, ⟨.special, [' '], 1, none⟩]
    let p : Protocol := { bindings := [{ name := ['x'], value := value }], arguments := [['7'], ['2']] }
    p.lookup ['x'] = some { name := ['x'], value := value } ∧ p.NumbersAgree ['x'] := by
  intro value p
  have bound : p.lookup ['x'] = some { name := ['x'], value := value } := by decide +kernel
  refine ⟨bound, ((numbersAgree_iff p ['x'] _ bound).2 (by decide +kernel)).1 (value.take 2) (value.drop 2) rfl ?_ ?_⟩
  · intro t ht
    obtain rfl | rfl : t = value[0] ∨ t = value[1] := by simpa [value] using ht
    · exact .inl (by decide)
    · exact .inr ⟨rfl, by decide +kernel⟩
  · decide

/-- A parameter in the value of a variable: the reference gives the number of the parameter, not its argument. -/
theorem numbersAgree_fails_parameter :
    let p : Protocol := {
      name := "p(500)".toList, line := 1
      commands := ⟨[], [⟨.word, "wait".toList, 1, none⟩, ⟨.reference, ['x'], 1, none⟩,
        ⟨.terminator, [';'], 1, none⟩], 1, false⟩
      bindings := [⟨['x'], [⟨.reference, ['1'], 1, none⟩], 1, false⟩]
      self := some "p(500)".toList, arguments := ["500".toList] }
    (ProtocolFile.ofSource "p \x7b x = $1; wait $x; \x7d".toList none).bind
        (fun f => (f.instantiate "p(500)".toList).mapError .fault) = .ok p ∧
      (∃ a, (p.compileNumber (.ofTokens [⟨.reference, ['x'], 1, none⟩]) 1000).result = .ok (1, a)) ∧
      (p.numberVariable ['x'] 1000).result = .ok (some 500) ∧ ¬ p.NumbersAgree ['x'] := by
  intro p
  have reference : (p.compileNumber (.ofTokens [⟨.reference, ['x'], 1, none⟩]) 1000).result =
      .ok (1, ⟨[⟨.reference, ['x'], 1, none⟩], []⟩) := by decide +kernel
  have whole : (p.numberVariable ['x'] 1000).result = .ok (some 500) := by decide +kernel
  refine ⟨by decide +kernel, ⟨_, reference⟩, whole, fun agree => ?_⟩
  have := (agree 1 1000 1).mp ⟨_, reference⟩
  rw [whole] at this
  simp at this

end Protocol
end DeviceProtocol
