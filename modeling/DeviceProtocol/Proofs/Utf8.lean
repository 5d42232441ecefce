import DeviceProtocol.Text.Utf8
set_option autoImplicit false

namespace DeviceProtocol

namespace Utf8

theorem toNat_ofNat (n : Nat) (h : n.isValidChar) : (Char.ofNat n).toNat = n := by
  rw [Char.ofNat, dif_pos h]
  rfl

theorem toNat_byte (n : Nat) (h : n < 0x100) : (UInt8.ofNat n).toNat = n := by
  simp [Nat.mod_eq_of_lt h]

theorem encode_one (c : Char) (h : c.toNat < 0x80) :
    String.utf8EncodeChar c = [UInt8.ofNat c.toNat] := by
  have hv : c.val.toNat = c.toNat := rfl
  simp only [String.utf8EncodeChar, hv]
  rw [if_pos (by omega)]

theorem encode_two (c : Char) (low : 0x80 ≤ c.toNat) (high : c.toNat < 0x800) :
    String.utf8EncodeChar c =
      [UInt8.ofNat (0xC0 + c.toNat / 64), UInt8.ofNat (0x80 + c.toNat % 64)] := by
  have hv : c.val.toNat = c.toNat := rfl
  simp only [String.utf8EncodeChar, hv]
  rw [if_neg (by omega), if_pos (by omega), Nat.mod_eq_of_lt (show c.toNat / 64 < 0x20 by omega),
    Nat.add_comm, Nat.add_comm 0x80]

theorem encode_three (c : Char) (low : 0x800 ≤ c.toNat) (high : c.toNat < 0x10000) :
    String.utf8EncodeChar c =
      [UInt8.ofNat (0xE0 + c.toNat / 4096), UInt8.ofNat (0x80 + c.toNat / 64 % 64),
        UInt8.ofNat (0x80 + c.toNat % 64)] := by
  have hv : c.val.toNat = c.toNat := rfl
  simp only [String.utf8EncodeChar, hv]
  rw [if_neg (by omega), if_neg (by omega), if_pos (by omega),
    Nat.mod_eq_of_lt (show c.toNat / 4096 < 0x10 by omega)]
  simp only [Nat.add_comm]

theorem encode_four (c : Char) (low : 0x10000 ≤ c.toNat) :
    String.utf8EncodeChar c =
      [UInt8.ofNat (0xF0 + c.toNat / 262144), UInt8.ofNat (0x80 + c.toNat / 4096 % 64),
        UInt8.ofNat (0x80 + c.toNat / 64 % 64), UInt8.ofNat (0x80 + c.toNat % 64)] := by
  have hv : c.val.toNat = c.toNat := rfl
  have hc : c.toNat < 0x110000 := by
    have := c.valid
    simp only [UInt32.isValidChar, Nat.isValidChar, hv] at this
    omega
  simp only [String.utf8EncodeChar, hv]
  rw [if_neg (by omega), if_neg (by omega), if_neg (by omega),
    Nat.mod_eq_of_lt (show c.toNat / 262144 < 0x08 by omega)]
  simp only [Nat.add_comm]

theorem encode_high (c : Char) (h : 0x80 ≤ c.toNat) (b : UInt8) (hb : b ∈ String.utf8EncodeChar c) :
    0x80 ≤ b.toNat := by
  have valid : c.toNat.isValidChar := c.valid
  simp only [Nat.isValidChar] at valid
  by_cases h2 : c.toNat < 0x800
  · simp only [encode_two c h h2, List.mem_cons, List.not_mem_nil, or_false] at hb
    rcases hb with rfl | rfl <;> rw [toNat_byte _ (by omega)] <;> omega
  by_cases h3 : c.toNat < 0x10000
  · simp only [encode_three c (by omega) h3, List.mem_cons, List.not_mem_nil, or_false] at hb
    rcases hb with rfl | rfl | rfl <;> rw [toNat_byte _ (by omega)] <;> omega
  · simp only [encode_four c (by omega), List.mem_cons, List.not_mem_nil, or_false] at hb
    rcases hb with rfl | rfl | rfl | rfl <;> rw [toNat_byte _ (by omega)] <;> omega

theorem lead?_eq_some_iff (b : Nat) (l : Lead) : lead? b = some l ↔
    (2 ≤ l.bits ∧ l.bits < 0x20 ∧ b = 0xC0 + l.bits ∧ l.low = 0x80 ∧ l.high = 0xBF ∧ l.more = 0) ∨
    (l.bits < 0x10 ∧ b = 0xE0 + l.bits ∧ l.low = (if l.bits = 0 then 0xA0 else 0x80) ∧
      l.high = (if l.bits = 0xD then 0x9F else 0xBF) ∧ l.more = 1) ∨
    (l.bits < 5 ∧ b = 0xF0 + l.bits ∧ l.low = (if l.bits = 0 then 0x90 else 0x80) ∧
      l.high = (if l.bits = 4 then 0x8F else 0xBF) ∧ l.more = 2) := by
  obtain ⟨bits, low, high, more⟩ := l
  simp only [lead?]
  split
  · simp; omega
  split
  · simp; omega
  split
  · simp; grind
  split
  · simp; grind
  · simp; omega

theorem continuation_byte (b : UInt8) (low : 0x80 ≤ b.toNat) :
    b = UInt8.ofNat (0x80 + (b.toNat - 0x80)) := by
  apply UInt8.toNat_inj.mp
  rw [toNat_byte _ (by have := b.toNat_lt; omega)]
  omega

theorem continuation_succ (acc more d : Nat) (bs : Bytes) (h : d < 64) :
    continuation acc (more + 1) (UInt8.ofNat (0x80 + d) :: bs) =
      continuation (acc * 64 + d) more bs := by
  have hb := toNat_byte (0x80 + d) (by omega)
  simp only [continuation, hb]
  rw [if_pos (by simp; omega), Nat.add_sub_cancel_left]

theorem continuation_sound (acc more : Nat) (bs rest : Bytes) (c : Char)
    (h : continuation acc (more + 1) bs = (some c, rest)) :
    ∃ d tail, d < 64 ∧ bs = UInt8.ofNat (0x80 + d) :: tail ∧
      continuation (acc * 64 + d) more tail = (some c, rest) := by
  cases bs with
  | nil => simp [continuation] at h
  | cons b tail =>
    simp only [continuation] at h
    split at h
    · rename_i hb
      simp only [Bool.and_eq_true, decide_eq_true_eq] at hb
      refine ⟨b.toNat - 0x80, tail, by omega, ?_, h⟩
      rw [← continuation_byte b hb.1]
    · simp at h

theorem sequence_lead (b : UInt8) (l : Lead) (d : Nat) (bs : Bytes) (hl : lead? b.toNat = some l)
    (hb : 0x80 ≤ b.toNat) (hd : d < 64) (low : l.low ≤ 0x80 + d) (high : 0x80 + d ≤ l.high) :
    sequence b (UInt8.ofNat (0x80 + d) :: bs) = continuation (l.bits * 64 + d) l.more bs := by
  simp only [sequence, hl, toNat_byte (0x80 + d) (by omega)]
  rw [if_neg (by omega), if_pos (by simp [low, high]), Nat.add_sub_cancel_left]

theorem sequence_encode (c : Char) (rest : Bytes) :
    ∃ b bs, String.utf8EncodeChar c = b :: bs ∧ sequence b (bs ++ rest) = (some c, rest) := by
  have valid : c.toNat.isValidChar := c.valid
  simp only [Nat.isValidChar] at valid
  by_cases h1 : c.toNat < 0x80
  · refine ⟨_, _, encode_one c h1, ?_⟩
    simp [sequence, toNat_byte _ (show c.toNat < 0x100 by omega), h1]
  by_cases h2 : c.toNat < 0x800
  · refine ⟨_, _, encode_two c (by omega) h2, ?_⟩
    have hb := toNat_byte (0xC0 + c.toNat / 64) (by omega)
    have hl : lead? (0xC0 + c.toNat / 64) = some ⟨c.toNat / 64, 0x80, 0xBF, 0⟩ := by
      rw [lead?_eq_some_iff]; simp; omega
    rw [List.cons_append, sequence_lead _ _ (c.toNat % 64) _ (hb ▸ hl) (by omega) (by omega)
      (by simp) (by simp; omega)]
    simp only [continuation, List.nil_append, Nat.div_add_mod', Char.ofNat_toNat]
  by_cases h3 : c.toNat < 0x10000
  · refine ⟨_, _, encode_three c (by omega) h3, ?_⟩
    have hb := toNat_byte (0xE0 + c.toNat / 4096) (by omega)
    have hl : lead? (0xE0 + c.toNat / 4096) = some ⟨c.toNat / 4096,
        if c.toNat / 4096 = 0 then 0xA0 else 0x80, if c.toNat / 4096 = 0xD then 0x9F else 0xBF, 1⟩ := by
      rw [lead?_eq_some_iff]; simp; omega
    rw [List.cons_append, sequence_lead _ _ (c.toNat / 64 % 64) _ (hb ▸ hl) (by omega) (by omega)
      (by simp only; split <;> omega) (by simp only; split <;> omega)]
    simp only [List.cons_append, List.nil_append]
    rw [continuation_succ _ _ _ _ (by omega), continuation,
      show (c.toNat / 4096 * 64 + c.toNat / 64 % 64) * 64 + c.toNat % 64 = c.toNat by omega,
      Char.ofNat_toNat]
  · refine ⟨_, _, encode_four c (by omega), ?_⟩
    have hb := toNat_byte (0xF0 + c.toNat / 262144) (by omega)
    have hl : lead? (0xF0 + c.toNat / 262144) = some ⟨c.toNat / 262144,
        if c.toNat / 262144 = 0 then 0x90 else 0x80, if c.toNat / 262144 = 4 then 0x8F else 0xBF, 2⟩ := by
      rw [lead?_eq_some_iff]; simp; omega
    rw [List.cons_append, sequence_lead _ _ (c.toNat / 4096 % 64) _ (hb ▸ hl) (by omega) (by omega)
      (by simp only; split <;> omega) (by simp only; split <;> omega)]
    simp only [List.cons_append, List.nil_append]
    rw [continuation_succ _ _ _ _ (by omega), continuation_succ _ _ _ _ (by omega), continuation,
      show ((c.toNat / 262144 * 64 + c.toNat / 4096 % 64) * 64 + c.toNat / 64 % 64) * 64 +
        c.toNat % 64 = c.toNat by omega,
      Char.ofNat_toNat]

theorem lead?_range (b : Nat) (l : Lead) (h : lead? b = some l) : 0x80 ≤ l.low ∧ l.high ≤ 0xBF := by
  rcases (lead?_eq_some_iff b l).mp h with ⟨-, -, -, hl, hh, -⟩ | ⟨-, -, hl, hh, -⟩ | ⟨-, -, hl, hh, -⟩
  · omega
  · split at hl <;> split at hh <;> omega
  · split at hl <;> split at hh <;> omega

theorem sequence_cases (b : UInt8) (bs rest : Bytes) (c : Char)
    (h : sequence b bs = (some c, rest)) :
    (b.toNat < 0x80 ∧ c = Char.ofNat b.toNat ∧ bs = rest) ∨
    ∃ l d tail, lead? b.toNat = some l ∧ d < 64 ∧ l.low ≤ 0x80 + d ∧ 0x80 + d ≤ l.high ∧
      bs = UInt8.ofNat (0x80 + d) :: tail ∧
      continuation (l.bits * 64 + d) l.more tail = (some c, rest) := by
  unfold sequence at h
  split at h
  · rename_i hb
    simp only [Prod.mk.injEq, Option.some.injEq] at h
    exact .inl ⟨hb, h.1.symm, h.2⟩
  · split at h
    · simp at h
    · rename_i l hl
      split at h
      · simp at h
      · rename_i x tail
        split at h
        · rename_i hx
          simp only [Bool.and_eq_true, decide_eq_true_eq] at hx
          have hr := lead?_range _ l hl
          refine .inr ⟨l, x.toNat - 0x80, tail, hl, by omega, by omega, by omega, ?_, h⟩
          rw [← continuation_byte x (by omega)]
        · simp at h

/-- A sequence that is read as a character is what that character is written as. Overlong forms and
surrogates would break this; the range behind the lead byte keeps them out. -/
theorem sequence_sound (b : UInt8) (bs rest : Bytes) (c : Char)
    (h : sequence b bs = (some c, rest)) : b :: bs = String.utf8EncodeChar c ++ rest := by
  obtain ⟨hb, rfl, rfl⟩ | ⟨l, d, tail, hl, hd, low, high, rfl, hc⟩ := sequence_cases b bs rest c h
  · have hv : (Char.ofNat b.toNat).toNat = b.toNat := toNat_ofNat _ (by left; omega)
    rw [encode_one _ (by omega), hv, UInt8.ofNat_toNat, List.singleton_append]
  rw [← b.ofNat_toNat]
  obtain ⟨lo, hi, hb, -, -, hm⟩ | ⟨hi, hb, hlow, hhigh, hm⟩ | ⟨hi, hb, hlow, hhigh, hm⟩ :=
    (lead?_eq_some_iff _ _).mp hl
  · simp only [hm, continuation, Prod.mk.injEq, Option.some.injEq] at hc
    obtain ⟨rfl, rfl⟩ := hc
    have hv := toNat_ofNat (l.bits * 64 + d) (by left; omega)
    rw [encode_two _ (by omega) (by omega), hv, hb,
      show (l.bits * 64 + d) / 64 = l.bits by omega, show (l.bits * 64 + d) % 64 = d by omega]
    rfl
  · rw [hm] at hc
    obtain ⟨e, tail, he, rfl, he'⟩ := continuation_sound _ _ _ _ _ hc
    simp only [continuation, Prod.mk.injEq, Option.some.injEq] at he'
    obtain ⟨rfl, rfl⟩ := he'
    obtain ⟨v, hv⟩ : ∃ v, v = (l.bits * 64 + d) * 64 + e := ⟨_, rfl⟩
    -- the bounds on the second byte rule out surrogates and overlong forms
    have valid : v < 0xD800 ∨ 0xDFFF < v ∧ v < 0x110000 := by split at hhigh <;> omega
    have least : 0x800 ≤ v := by split at hlow <;> omega
    rw [← hv, encode_three _ (by rwa [toNat_ofNat v valid]) (by rw [toNat_ofNat v valid]; omega),
      toNat_ofNat v valid, hb, show v / 4096 = l.bits by omega, show v / 64 % 64 = d by omega,
      show v % 64 = e by omega]
    rfl
  · rw [hm] at hc
    obtain ⟨e, tail, he, rfl, he'⟩ := continuation_sound _ _ _ _ _ hc
    obtain ⟨f, tail, hf, rfl, hf'⟩ := continuation_sound _ _ _ _ _ he'
    simp only [continuation, Prod.mk.injEq, Option.some.injEq] at hf'
    obtain ⟨rfl, rfl⟩ := hf'
    obtain ⟨v, hv⟩ : ∃ v, v = ((l.bits * 64 + d) * 64 + e) * 64 + f := ⟨_, rfl⟩
    have valid : v < 0xD800 ∨ 0xDFFF < v ∧ v < 0x110000 := by
      split at hlow <;> split at hhigh <;> omega
    have least : 0x10000 ≤ v := by split at hlow <;> omega
    rw [← hv, encode_four _ (by rwa [toNat_ofNat v valid]), toNat_ofNat v valid, hb,
      show v / 262144 = l.bits by omega, show v / 4096 % 64 = d by omega,
      show v / 64 % 64 = e by omega, show v % 64 = f by omega]
    rfl

theorem sequences_encode (c : Char) (rest : Bytes) :
    sequences (String.utf8EncodeChar c ++ rest) = some c :: sequences rest := by
  obtain ⟨b, bs, he, hs⟩ := sequence_encode c rest
  rw [he, List.cons_append, sequences, hs]

theorem sequences_utf8 (t : Text) : sequences t.utf8 = t.map some := by
  induction t with
  | nil => simp [sequences]
  | cons c t ih => rw [Text.utf8, List.flatMap_cons, sequences_encode, ← Text.utf8, ih, List.map_cons]

theorem sequences_sound (bs : Bytes) (t : Text) (h : sequences bs = t.map some) : bs = t.utf8 := by
  fun_induction sequences bs generalizing t with
  | case1 =>
    rw [List.nil_eq, List.map_eq_nil_iff] at h
    rw [h, Text.utf8_nil]
  | case2 b bs ih =>
    cases t with
    | nil => simp at h
    | cons c t =>
      simp only [List.map_cons, List.cons.injEq] at h
      have hs := sequence_sound b bs (sequence b bs).2 c (Prod.ext h.1 rfl)
      rw [hs, ih t h.2]
      rfl

end Utf8

namespace Text

theorem mapM_id_eq_some (os : List (Option Char)) (t : Text) :
    os.mapM id = some t ↔ os = t.map some := by
  induction os generalizing t with
  | nil => cases t <;> simp
  | cons o os ih =>
    cases o with
    | none => cases t <;> simp
    | some c =>
      rw [List.mapM_cons, id, Option.bind_eq_bind, Option.bind_some, Option.bind_eq_bind,
        Option.bind_eq_some_iff]
      cases t with
      | nil => simp
      | cons d t => simpa [ih] using and_comm

theorem ofUtf8?_eq_some_iff (bs : Bytes) (t : Text) : ofUtf8? bs = some t ↔ bs = t.utf8 := by
  rw [ofUtf8?, mapM_id_eq_some]
  constructor
  · exact Utf8.sequences_sound bs t
  · rintro rfl
    exact Utf8.sequences_utf8 t

theorem zero_mem_encode_iff (c : Char) : 0 ∈ String.utf8EncodeChar c ↔ c = Char.ofNat 0 := by
  constructor
  · intro h
    by_cases hc : c.toNat < 0x80
    · rw [Utf8.encode_one c hc, List.mem_singleton, ← UInt8.toNat_inj, Utf8.toNat_byte _ (by omega)] at h
      rw [← c.ofNat_toNat, ← h]
      rfl
    · have := Utf8.encode_high c (by omega) 0 h
      simp at this
  · rintro rfl
    decide

theorem zero_mem_utf8_iff (t : Text) : 0 ∈ t.utf8 ↔ Char.ofNat 0 ∈ t := by
  simp only [utf8, List.mem_flatMap, zero_mem_encode_iff, exists_eq_right]

end Text
end DeviceProtocol
