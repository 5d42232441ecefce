import DeviceProtocol.Instruction.Wire
import DeviceProtocol.Proofs.Utf8
set_option autoImplicit false

namespace DeviceProtocol

theorem eq_takeWhile_append {α : Type} [DecidableEq α] (sep a : α) (as rest : List α)
    (h : as.dropWhile (· != sep) = a :: rest) : as = as.takeWhile (· != sep) ++ sep :: rest := by
  have ha : a = sep := by
    have := List.head?_dropWhile_not (· != sep) as
    simpa [h] using this
  subst ha
  rw [← h, List.takeWhile_append_dropWhile]

namespace Wire

theorem value_lt (bs : Bytes) : value bs < capacity bs.length := by
  induction bs with
  | nil => simp [value, capacity]
  | cons b bs ih =>
    have := b.toNat_lt
    simp only [value, capacity, List.length_cons]
    omega

theorem littleEndian_value (bs : Bytes) : littleEndian bs.length (value bs) = bs := by
  induction bs with
  | nil => rfl
  | cons b bs ih =>
    have hb := b.toNat_lt
    have low : UInt8.ofNat (b.toNat + 256 * value bs) = b := by
      apply UInt8.toNat_inj.mp
      simp only [UInt8.toNat_ofNat']
      omega
    rw [List.length_cons, littleEndian, value, low,
      show (b.toNat + 256 * value bs) / 256 = value bs by omega, ih]

theorem littleEndian_pair (a b : UInt8) : littleEndian 2 (value [a, b]) = [a, b] :=
  littleEndian_value [a, b]

theorem number_sound (width n : Nat) (bs rest : Bytes) (h : number width bs = .ok (n, rest)) :
    n < capacity width ∧ bs = littleEndian width n ++ rest := by
  unfold number at h
  split at h
  · simp at h
  · simp only [Except.ok.injEq, Prod.mk.injEq] at h
    obtain ⟨rfl, rfl⟩ := h
    have hw : (bs.take width).length = width := by
      rw [List.length_take]
      omega
    have hv := value_lt (bs.take width)
    have hl := littleEndian_value (bs.take width)
    rw [hw] at hv hl
    exact ⟨hv, by rw [hl, List.take_append_drop]⟩

theorem text_zeroTerminated (t : Text) (h : Char.ofNat 0 ∉ t) (rest : Bytes) :
    text (zeroTerminated t ++ rest) = .ok (t, rest) := by
  have hz : ∀ b ∈ t.utf8, (b != 0) = true := by
    intro b hb
    rw [bne_iff_ne]
    rintro rfl
    exact h ((Text.zero_mem_utf8_iff t).mp hb)
  have ht := (Text.ofUtf8?_eq_some_iff t.utf8 t).mpr rfl
  simp only [text, zeroTerminated, List.append_assoc, List.cons_append, List.nil_append,
    List.dropWhile_append_of_pos hz, List.takeWhile_append_of_pos hz]
  simp [ht]

theorem text_sound (bs rest : Bytes) (t : Text) (h : text bs = .ok (t, rest)) :
    Char.ofNat 0 ∉ t ∧ bs = zeroTerminated t ++ rest := by
  unfold text at h
  split at h
  · simp at h
  · rename_i b tail hd
    split at h
    · rename_i s hs
      simp only [Except.ok.injEq, Prod.mk.injEq] at h
      obtain ⟨rfl, rfl⟩ := h
      have ht := (Text.ofUtf8?_eq_some_iff _ _).mp hs
      have free : 0 ∉ s.utf8 := by
        rw [← ht]
        intro hm
        have := List.all_eq_true.mp (List.all_takeWhile (l := bs) (p := (· != 0))) 0 hm
        simp at this
      refine ⟨fun hm => free ((Text.zero_mem_utf8_iff s).mpr hm), ?_⟩
      rw [zeroTerminated, ← ht, List.append_assoc, List.singleton_append]
      exact eq_takeWhile_append 0 b bs tail hd
    · simp at h

theorem signed16_lt (n : Nat) (h : n < 0x10000) : -0x8000 ≤ signed16 n ∧ signed16 n < 0x8000 := by
  unfold signed16
  split <;> omega

end Wire

theorem FormatType.code_of_ofCode? (n : Nat) (t : FormatType) (h : ofCode? n = some t) : t.code = n := by
  simpa using List.find?_some h

namespace Descriptor

/-- The numbers of the descriptor fit their places: a byte for the conversion, two for each of the others,
of which the width and the precision have a sign. -/
structure InRange (d : Descriptor) : Prop where
  conversion : d.conversion.toNat < 0x100
  flags : d.flags.bits < 0x10000
  width : -0x8000 ≤ d.width ∧ d.width < 0x8000
  precision : -0x8000 ≤ d.precision ∧ d.precision < 0x8000
  infoLength : d.infoLength < 0x10000

instance (d : Descriptor) : Decidable d.InRange :=
  decidable_of_iff
    (d.conversion.toNat < 0x100 ∧ d.flags.bits < 0x10000 ∧ (-0x8000 ≤ d.width ∧ d.width < 0x8000) ∧
      (-0x8000 ≤ d.precision ∧ d.precision < 0x8000) ∧ d.infoLength < 0x10000)
    ⟨fun ⟨c, f, w, p, i⟩ => ⟨c, f, w, p, i⟩, fun ⟨c, f, w, p, i⟩ => ⟨c, f, w, p, i⟩⟩

theorem signed16_signedBytes (n : Int) (h : -0x8000 ≤ n ∧ n < 0x8000) :
    Wire.signed16 (Wire.value (signedBytes n)) = n := by
  have hc : Wire.capacity 2 = 0x10000 := rfl
  rw [signedBytes, Wire.value_littleEndian, hc]
  unfold Wire.signed16
  split <;> omega

theorem signedBytes_pair (a b : UInt8) : signedBytes (Wire.signed16 (Wire.value [a, b])) = [a, b] := by
  have hv : Wire.value [a, b] < 0x10000 := Wire.value_lt [a, b]
  have hn : (Wire.signed16 (Wire.value [a, b]) % 0x10000).toNat = Wire.value [a, b] := by
    unfold Wire.signed16
    split <;> omega
  rw [signedBytes, hn, Wire.littleEndian_pair]

theorem bytes_eq (d : Descriptor) : ∃ f0 f1 w0 w1 p0 p1 l0 l1,
    Wire.littleEndian 2 d.flags.bits = [f0, f1] ∧ signedBytes d.width = [w0, w1] ∧
    signedBytes d.precision = [p0, p1] ∧ Wire.littleEndian 2 d.infoLength = [l0, l1] ∧
    d.bytes = [UInt8.ofNat d.type.code, UInt8.ofNat d.conversion.toNat, f0, f1, w0, w1, p0, p1, l0, l1] :=
  ⟨_, _, _, _, _, _, _, _, rfl, rfl, rfl, rfl, rfl⟩

theorem read_bytes (d : Descriptor) (h : d.InRange) (rest : Bytes) :
    read (d.bytes ++ rest) = .ok (d, rest) := by
  obtain ⟨f0, f1, w0, w1, p0, p1, l0, l1, hf, hw, hp, hl, hb⟩ := bytes_eq d
  have ht : (UInt8.ofNat d.type.code).toNat = d.type.code := by cases d.type <;> rfl
  have hc := Utf8.toNat_byte d.conversion.toNat h.conversion
  have flags : Wire.value [f0, f1] = d.flags.bits := by
    rw [← hf, Wire.value_littleEndian]
    exact Nat.mod_eq_of_lt h.flags
  have infoLength : Wire.value [l0, l1] = d.infoLength := by
    rw [← hl, Wire.value_littleEndian]
    exact Nat.mod_eq_of_lt h.infoLength
  have width := signed16_signedBytes d.width h.width
  have precision := signed16_signedBytes d.precision h.precision
  rw [hw] at width
  rw [hp] at precision
  simp only [hb, read, List.cons_append, List.nil_append, ht, FormatType.ofCode?_code, hc, flags,
    infoLength, width, precision, Char.ofNat_toNat]

theorem read_sound (bs rest : Bytes) (d : Descriptor) (h : read bs = .ok (d, rest)) :
    d.InRange ∧ bs = d.bytes ++ rest := by
  unfold read at h
  split at h
  · rename_i t c f0 f1 w0 w1 p0 p1 l0 l1 tail
    split at h
    · simp at h
    · rename_i type ht
      simp only [Except.ok.injEq, Prod.mk.injEq] at h
      obtain ⟨rfl, rfl⟩ := h
      have hc : (Char.ofNat c.toNat).toNat = c.toNat :=
        Utf8.toNat_ofNat _ (by left; have := c.toNat_lt; omega)
      constructor
      · constructor
        · simpa [hc] using c.toNat_lt
        · exact Wire.value_lt [f0, f1]
        · exact Wire.signed16_lt _ (Wire.value_lt [w0, w1])
        · exact Wire.signed16_lt _ (Wire.value_lt [p0, p1])
        · exact Wire.value_lt [l0, l1]
      · have code : UInt8.ofNat type.code = t := by
          rw [FormatType.code_of_ofCode? _ _ ht, UInt8.ofNat_toNat]
        have byte (n : Nat) : Wire.littleEndian 1 n = [UInt8.ofNat n] := rfl
        simp only [bytes, byte, code, hc, UInt8.ofNat_toNat, Wire.littleEndian_pair, signedBytes_pair,
          List.cons_append, List.nil_append]
  · simp at h

end Descriptor
end DeviceProtocol
