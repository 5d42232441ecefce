import Mathlib.Data.List.Basic
import DeviceProtocol.ProtocolFile.Read
import DeviceProtocol.Settings
import DeviceProtocol.Proofs.NumberReading
set_option autoImplicit false

namespace DeviceProtocol

namespace Protocol

def First (p : Protocol) (fits : Text → Prop) (b : Binding) : Prop :=
  fits b.name ∧ ∃ before after, p.bindings = before ++ b :: after ∧ ∀ c ∈ before, ¬ fits c.name

theorem find?_eq_some_iff_first (p : Protocol) (test : Binding → Bool) (fits : Text → Prop) (b : Binding)
    (h : ∀ c, test c = true ↔ fits c.name) : p.bindings.find? test = some b ↔ p.First fits b := by
  rw [List.find?_eq_some_iff_append, First, h]
  simp only [← h, Bool.not_eq_eq_eq_not, Bool.not_true, Bool.not_eq_true]

theorem lookup_eq_none_iff (p : Protocol) (name : Text) :
    p.lookup name = none ↔ ∀ b ∈ p.bindings, ¬ Text.lower name <+: b.name := by
  simp only [lookup, Option.or_eq_none_iff, List.find?_eq_none, beq_iff_eq, List.isPrefixOf_iff_prefix]
  constructor
  · intro h
    exact h.2
  · intro h
    refine ⟨fun b hb same => h b hb ?_, h⟩
    simp [same]

theorem lookup_eq_some_iff (p : Protocol) (name : Text) (b : Binding) :
    p.lookup name = some b ↔
      p.First (· = Text.lower name) b ∨
        (∀ c ∈ p.bindings, c.name ≠ Text.lower name) ∧ p.First (Text.lower name <+: ·) b := by
  have exactly := p.find?_eq_some_iff_first (fun b => b.name == Text.lower name) (· = Text.lower name) b (by simp)
  have extending := p.find?_eq_some_iff_first (fun b => (Text.lower name).isPrefixOf b.name)
    (Text.lower name <+: ·) b (by simp)
  have missing : p.bindings.find? (fun b => b.name == Text.lower name) = none ↔
      ∀ c ∈ p.bindings, c.name ≠ Text.lower name := by simp
  rw [lookup, Option.or_eq_some_iff, exactly, extending, missing]

/-- The protocol gives a setting this value: that of the variable of its name, or of the first variable whose name
starts with it, or the default. -/
inductive Supplies {α : Type} (p : Protocol) (name : Text) (default : α) (value : Binding → α → Prop) : α → Prop
  | own (b : Binding) (a : α) (first : p.First (· = name) b) (h : value b a) : Supplies p name default value a
  | extended (b : Binding) (a : α) (missing : ∀ c ∈ p.bindings, c.name ≠ name) (first : p.First (name <+: ·) b)
      (h : value b a) : Supplies p name default value a
  | default (missing : ∀ b ∈ p.bindings, ¬ name <+: b.name) : Supplies p name default value default

theorem supplies_iff_lookup {α : Type} (p : Protocol) (name : Text) (default a : α) (value : Binding → α → Prop)
    (small : Text.lower name = name) :
    p.Supplies name default value a ↔
      p.lookup name = none ∧ a = default ∨ ∃ b, p.lookup name = some b ∧ value b a := by
  simp only [lookup_eq_none_iff, lookup_eq_some_iff, small]
  constructor
  · intro h
    cases h with
    | own b _ first h => exact .inr ⟨b, .inl first, h⟩
    | extended b _ missing first h => exact .inr ⟨b, .inr ⟨missing, first⟩, h⟩
    | default missing => exact .inl ⟨missing, rfl⟩
  · rintro (⟨missing, rfl⟩ | ⟨b, first | ⟨missing, first⟩, h⟩)
    · exact .default missing
    · exact .own b a first h
    · exact .extended b a missing first h

/-- The number that the value of a variable denotes as a whole. -/
def NumberValue (p : Protocol) (b : Binding) (n : Int) : Prop :=
  ∃ m : Nat, (p.reading b.value).bind Text.number? = some m ∧ (m : Int) ≤ maxNumber ∧ n = m

theorem numberVariable_of_unbound (p : Protocol) (name : Text) (limit : Int) (unbound : p.lookup name = none) :
    (p.numberVariable name limit).result = .ok none := by
  rw [numberVariable, Traced.bind_of_ok _ _ _ (p.consult_result name), unbound]
  rfl

theorem numberVariable_ne_none (p : Protocol) (name : Text) (b : Binding) (limit : Int)
    (bound : p.lookup name = some b) : (p.numberVariable name limit).result ≠ .ok none := by
  rw [numberVariable, Traced.bind_of_ok _ _ _ (p.consult_result name), bound]
  intro h
  obtain ⟨⟨n, a⟩, -, h⟩ := (Traced.bind_eq_ok_iff _ _ _).mp h
  dsimp only at h
  split at h
  · cases h
  · exact absurd h (Traced.fault_ne_ok _ _ _ _)

theorem numberVariable_ok_iff (p : Protocol) (name : Text) (value : Option Nat) :
    (p.numberVariable name maxNumber).result = .ok value ↔
      p.lookup name = none ∧ value = none ∨
        ∃ b, p.lookup name = some b ∧ ∃ n : Nat, value = some n ∧ p.NumberValue b n := by
  cases hb : p.lookup name with
  | none =>
    rw [p.numberVariable_of_unbound name maxNumber hb]
    simp [eq_comm]
  | some b =>
    cases value with
    | none => simp [p.numberVariable_ne_none name b maxNumber hb]
    | some n =>
      rw [p.numberVariable_eq_ok_iff name b maxNumber n hb]
      constructor
      · rintro ⟨hn, hl⟩
        exact .inr ⟨b, rfl, n, rfl, n, hn, hl, rfl⟩
      · rintro (⟨h, -⟩ | ⟨c, hc, m, hm, k, hn, hl, hk⟩)
        · cases h
        · cases hc
          cases hm
          cases Int.ofNat_inj.mp hk
          exact ⟨hn, hl⟩

theorem choiceVariable_ok_iff (p : Protocol) (name : Text) (choices : List Text) (value : Option Nat) :
    (p.choiceVariable name choices).result = .ok value ↔
      p.lookup name = none ∧ value = none ∨
        ∃ b, p.lookup name = some b ∧
          ∃ i, value = some i ∧ choices.findIdx? (fun c => c.isPrefixOf (Token.joined b.value)) = some i := by
  rw [choiceVariable, Traced.bind_of_ok _ _ _ (p.consult_result name)]
  cases p.lookup name with
  | none => simp [eq_comm]
  | some b =>
    have joined : (b.value.filter fun t => !t.isBlank).flatMap Token.text = Token.joined b.value := rfl
    cases hi : choices.findIdx? fun c => c.isPrefixOf (Token.joined b.value) with
    | none => simp [Traced.fault, joined, hi]
    | some i => simp [joined, hi, eq_comm]

end Protocol

namespace Settings

def ExtraInput (b : Binding) (ignored : Bool) : Prop :=
  (if ignored then "ignore" else "error").toList <+: Token.joined b.value

theorem extraInput_iff (b : Binding) (ignored : Bool) :
    ExtraInput b ignored ↔
      ∃ i, (i == 1) = ignored ∧ extraInputChoices.findIdx? (fun c => c.isPrefixOf (Token.joined b.value)) = some i := by
  simp only [ExtraInput, extraInputChoices, List.findIdx?_cons, List.findIdx?_nil, ← List.isPrefixOf_iff_prefix]
  have apart : ¬ ("error".toList.isPrefixOf (Token.joined b.value) = true ∧
      "ignore".toList.isPrefixOf (Token.joined b.value) = true) := by
    rintro ⟨he, hi⟩
    cases h : Token.joined b.value with
    | nil => simp [h] at he
    | cons c cs =>
      simp only [h, String.reduceToList, List.isPrefixOf_cons_cons, Bool.and_eq_true, beq_iff_eq] at he hi
      exact absurd (he.1.trans hi.1.symm) (by decide)
  cases he : "error".toList.isPrefixOf (Token.joined b.value) <;>
    cases hi : "ignore".toList.isPrefixOf (Token.joined b.value) <;> cases ignored <;> simp_all

end Settings

namespace Compiler

def StringValue (k : Compiler) (p : Protocol) (b : Binding) (is : List Instruction) : Prop :=
  ({ k with fields := none }.compileString p .plain b.value).result = .ok is

theorem stringVariable_ok_iff (k : Compiler) (p : Protocol) (name : Text) (value : Option (List Instruction)) :
    (k.stringVariable p name).result = .ok value ↔
      p.lookup name = none ∧ value = none ∨
        ∃ b, p.lookup name = some b ∧ ∃ is, value = some is ∧ k.StringValue p b is := by
  rw [stringVariable, Traced.bind_of_ok _ _ _ (p.consult_result name)]
  cases p.lookup name with
  | none => simp [eq_comm]
  | some b =>
    dsimp only
    rw [Traced.bind_eq_ok_iff]
    simp only [Traced.mapFault_eq_ok_iff, Traced.result_pure, Except.ok.injEq]
    constructor
    · rintro ⟨is, h, rfl⟩
      exact .inr ⟨b, rfl, is, rfl, h⟩
    · rintro (⟨h, -⟩ | ⟨c, hc, is, rfl, h⟩)
      · cases h
      · cases hc
        exact ⟨is, h, rfl⟩

theorem numberSetting_ok_iff (p : Protocol) (name : String) (default n : Int)
    (small : Text.lower name.toList = name.toList) :
    (numberSetting p name default).result = .ok n ↔ p.Supplies name.toList default p.NumberValue n := by
  rw [p.supplies_iff_lookup name.toList default n _ small, numberSetting, Traced.bind_eq_ok_iff]
  simp only [p.numberVariable_ok_iff]
  constructor
  · rintro ⟨value, ⟨unbound, rfl⟩ | ⟨b, bound, m, rfl, hm⟩, h⟩
    · cases h
      exact .inl ⟨unbound, rfl⟩
    · cases h
      exact .inr ⟨b, bound, hm⟩
  · rintro (⟨unbound, rfl⟩ | ⟨b, bound, m, hm, hl, rfl⟩)
    · exact ⟨none, .inl ⟨unbound, rfl⟩, rfl⟩
    · exact ⟨some m, .inr ⟨b, bound, m, rfl, m, hm, hl, rfl⟩, rfl⟩

theorem stringSetting_ok_iff (k : Compiler) (p : Protocol) (name : String) (default is : List Instruction)
    (small : Text.lower name.toList = name.toList) :
    (k.stringSetting p name default).result = .ok is ↔ p.Supplies name.toList default (k.StringValue p) is := by
  rw [p.supplies_iff_lookup name.toList default is _ small, stringSetting, Traced.bind_eq_ok_iff]
  simp only [k.stringVariable_ok_iff]
  constructor
  · rintro ⟨value, ⟨unbound, rfl⟩ | ⟨b, bound, js, rfl, hjs⟩, h⟩
    · cases h
      exact .inl ⟨unbound, rfl⟩
    · cases h
      exact .inr ⟨b, bound, hjs⟩
  · rintro (⟨unbound, rfl⟩ | ⟨b, bound, h⟩)
    · exact ⟨none, .inl ⟨unbound, rfl⟩, rfl⟩
    · exact ⟨some is, .inr ⟨b, bound, is, rfl, h⟩, rfl⟩

/-- The settings are those that the protocol supplies. The poll period falls back to the reply timeout, and the
terminator of either direction to the common one. -/
structure Supplied (k : Compiler) (p : Protocol) (s : Settings) : Prop where
  lockTimeout : p.Supplies "locktimeout".toList 5000 p.NumberValue s.lockTimeout
  writeTimeout : p.Supplies "writetimeout".toList 100 p.NumberValue s.writeTimeout
  replyTimeout : p.Supplies "replytimeout".toList 1000 p.NumberValue s.replyTimeout
  readTimeout : p.Supplies "readtimeout".toList 100 p.NumberValue s.readTimeout
  polling : p.Supplies "pollperiod".toList s.replyTimeout p.NumberValue s.polling
  pollPeriod : s.pollPeriod = none ↔ ∀ b ∈ p.bindings, ¬ "pollperiod".toList <+: b.name
  maxInput : p.Supplies "maxinput".toList 0 p.NumberValue s.maxInput
  terminators : ∃ both, p.Supplies "terminator".toList [] (k.StringValue p) both ∧
    p.Supplies "interminator".toList both (k.StringValue p) s.inTerminator ∧
    p.Supplies "outterminator".toList both (k.StringValue p) s.outTerminator
  separator : p.Supplies "separator".toList [] (k.StringValue p) s.separator
  extraInput : p.Supplies "extrainput".toList false Settings.ExtraInput s.ignoreExtraInput

theorem optionalNumber_ok_iff (p : Protocol) (name : Text) (default : Int) (given : Option Int)
    (small : Text.lower name = name) :
    (∃ value, (p.numberVariable name maxNumber).result = .ok value ∧ given = value.map Int.ofNat) ↔
      p.Supplies name default p.NumberValue (given.getD default) ∧
        (given = none ↔ ∀ b ∈ p.bindings, ¬ name <+: b.name) := by
  have unbound := p.lookup_eq_none_iff name
  rw [small] at unbound
  rw [p.supplies_iff_lookup name default _ _ small, ← unbound]
  simp only [p.numberVariable_ok_iff]
  constructor
  · rintro ⟨value, ⟨missing, rfl⟩ | ⟨b, bound, n, rfl, hn⟩, rfl⟩
    · exact ⟨.inl ⟨missing, rfl⟩, by simp [missing]⟩
    · exact ⟨.inr ⟨b, bound, hn⟩, by simp [bound]⟩
  · rintro ⟨⟨missing, h⟩ | ⟨b, bound, n, hn, hl, h⟩, hp⟩
    · rw [hp.mpr missing]
      exact ⟨none, .inl ⟨missing, rfl⟩, rfl⟩
    · cases given with
      | none => simp [bound] at hp
      | some m =>
        cases h
        exact ⟨some n, .inr ⟨b, bound, n, rfl, n, hn, hl, rfl⟩, rfl⟩

theorem extraInput_ok_iff (p : Protocol) (ignored : Bool) :
    (∃ value, (p.choiceVariable "extrainput".toList Settings.extraInputChoices).result = .ok value ∧
        ignored = (value == some 1)) ↔
      p.Supplies "extrainput".toList false Settings.ExtraInput ignored := by
  rw [p.supplies_iff_lookup _ false ignored _ (by decide)]
  simp only [p.choiceVariable_ok_iff, Settings.extraInput_iff]
  constructor
  · rintro ⟨value, ⟨missing, rfl⟩ | ⟨b, bound, i, rfl, hi⟩, rfl⟩
    · exact .inl ⟨missing, rfl⟩
    · exact .inr ⟨b, bound, i, by simp, hi⟩
  · rintro (⟨missing, rfl⟩ | ⟨b, bound, i, rfl, hi⟩)
    · exact ⟨none, .inl ⟨missing, rfl⟩, rfl⟩
    · exact ⟨some i, .inr ⟨b, bound, i, rfl, hi⟩, by simp⟩

/-- Reading the settings succeeds exactly with those that the protocol supplies: each is the value of the variable of
its name, or else of the first variable whose name starts with it, or else the default. -/
theorem readSettings_eq_ok_iff (k : Compiler) (p : Protocol) (s : Settings) :
    (k.readSettings p).result = .ok s ↔ k.Supplied p s := by
  have number (name : String) (default n : Int) (small : Text.lower name.toList = name.toList) :=
    numberSetting_ok_iff p name default n small
  have string (name : String) (default is : List Instruction) (small : Text.lower name.toList = name.toList) :=
    k.stringSetting_ok_iff p name default is small
  have poll (reply : Int) (given : Option Int) :=
    optionalNumber_ok_iff p "pollperiod".toList reply given (by decide)
  constructor
  · intro h
    obtain ⟨lock, hlock, h⟩ := (Traced.bind_eq_ok_iff _ _ _).mp h
    obtain ⟨write, hwrite, h⟩ := (Traced.bind_eq_ok_iff _ _ _).mp h
    obtain ⟨reply, hreply, h⟩ := (Traced.bind_eq_ok_iff _ _ _).mp h
    obtain ⟨read, hread, h⟩ := (Traced.bind_eq_ok_iff _ _ _).mp h
    obtain ⟨period, hperiod, h⟩ := (Traced.bind_eq_ok_iff _ _ _).mp h
    obtain ⟨input, hinput, h⟩ := (Traced.bind_eq_ok_iff _ _ _).mp h
    obtain ⟨both, hboth, h⟩ := (Traced.bind_eq_ok_iff _ _ _).mp h
    obtain ⟨inward, hinward, h⟩ := (Traced.bind_eq_ok_iff _ _ _).mp h
    obtain ⟨outward, houtward, h⟩ := (Traced.bind_eq_ok_iff _ _ _).mp h
    obtain ⟨separator, hseparator, h⟩ := (Traced.bind_eq_ok_iff _ _ _).mp h
    obtain ⟨extra, hextra, h⟩ := (Traced.bind_eq_ok_iff _ _ _).mp h
    cases h
    obtain ⟨hpolling, hgiven⟩ := (poll reply _).mp ⟨period, hperiod, rfl⟩
    exact {
      lockTimeout := (number _ _ _ (by decide)).mp hlock
      writeTimeout := (number _ _ _ (by decide)).mp hwrite
      replyTimeout := (number _ _ _ (by decide)).mp hreply
      readTimeout := (number _ _ _ (by decide)).mp hread
      polling := hpolling
      pollPeriod := hgiven
      maxInput := (number _ _ _ (by decide)).mp hinput
      terminators := ⟨both, (string _ _ _ (by decide)).mp hboth, (string _ _ _ (by decide)).mp hinward,
        (string _ _ _ (by decide)).mp houtward⟩
      separator := (string _ _ _ (by decide)).mp hseparator
      extraInput := (extraInput_ok_iff p _).mp ⟨extra, hextra, rfl⟩ }
  · intro h
    obtain ⟨period, hperiod, hgiven⟩ := (poll s.replyTimeout s.pollPeriod).mpr ⟨h.polling, h.pollPeriod⟩
    obtain ⟨both, hboth, hinward, houtward⟩ := h.terminators
    obtain ⟨extra, hextra, hignored⟩ := (extraInput_ok_iff p _).mpr h.extraInput
    rw [readSettings, Traced.bind_of_ok _ _ _ ((number _ _ _ (by decide)).mpr h.lockTimeout),
      Traced.bind_of_ok _ _ _ ((number _ _ _ (by decide)).mpr h.writeTimeout),
      Traced.bind_of_ok _ _ _ ((number _ _ _ (by decide)).mpr h.replyTimeout),
      Traced.bind_of_ok _ _ _ ((number _ _ _ (by decide)).mpr h.readTimeout),
      Traced.bind_of_ok _ _ _ hperiod,
      Traced.bind_of_ok _ _ _ ((number _ _ _ (by decide)).mpr h.maxInput),
      Traced.bind_of_ok _ _ _ ((string _ _ _ (by decide)).mpr hboth),
      Traced.bind_of_ok _ _ _ ((string _ _ _ (by decide)).mpr hinward),
      Traced.bind_of_ok _ _ _ ((string _ _ _ (by decide)).mpr houtward),
      Traced.bind_of_ok _ _ _ ((string _ _ _ (by decide)).mpr h.separator),
      Traced.bind_of_ok _ _ _ hextra, Traced.result_pure, ← hgiven, ← hignored]

/-- A variable whose name goes on behind that of a setting is taken for it. -/
theorem readSettings_fails_longer_name :
    let p : Protocol := {
      name := ['p'], line := 1, commands := ⟨[], [], 1, false⟩
      bindings := [⟨"maxinputs".toList, [⟨.word, ['7'], 1, none⟩], 1, false⟩], self := some ['p'] }
    (ProtocolFile.ofSource "p \x7b maxInputs = 7; \x7d".toList none).bind
        (fun f => (f.instantiate ['p']).mapError .fault) = .ok p ∧
      (∀ b ∈ p.bindings, b.name ≠ "maxinput".toList) ∧
      (readSettings {} p).result = .ok { maxInput := 7 } ∧ ({} : Settings).maxInput = 0 := by
  decide +kernel

end Compiler
end DeviceProtocol
