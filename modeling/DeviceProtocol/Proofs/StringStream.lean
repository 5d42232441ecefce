import DeviceProtocol.Proofs.Canonical
import DeviceProtocol.Proofs.Success
set_option autoImplicit false

/-!
Strings in the stream. `Instruction.Spelled` says which bytes spell which instructions, complete to the last
byte of every address, info and escape; the reader of strings accepts exactly these. What a string is written
as is one of its spellings, and none is shorter. Another one may escape bytes that need no escape.
-/
namespace DeviceProtocol

theorem Sentinel.code_of_ofCode? (b : UInt8) (s : Sentinel) (h : ofCode? b = some s) : s.code = b := by
  simpa using List.find?_some h

namespace Field

def targetBytes (name : Text) (address : Bytes) : Bytes :=
  Wire.zeroTerminated name ++ Wire.littleEndian 2 address.length ++ address

def bodyBytes (source : Text) (format : Descriptor) (info : Bytes) : Bytes :=
  Wire.zeroTerminated source ++ format.bytes ++ info

def sentinel (targeted : Bool) : Sentinel := if targeted then .formatField else .format

theorem readTarget_bytes (name : Text) (address rest : Bytes) (hn : Char.ofNat 0 ∉ name)
    (ha : address.length < 0x10000) :
    readTarget (targetBytes name address ++ rest) = .ok ((name, address), rest) := by
  simp only [readTarget, targetBytes, List.append_assoc, Wire.text_zeroTerminated name hn,
    Wire.number_littleEndian 2 address.length ha, bind, Except.bind, pure, Except.pure, List.take_left,
    List.drop_left]

theorem readBody_bytes (source : Text) (format : Descriptor) (info rest : Bytes)
    (hs : Char.ofNat 0 ∉ source) (hf : format.InRange) (hi : info.length = format.infoLength) :
    readBody (bodyBytes source format info ++ rest) = .ok ((source, format, info), rest) := by
  simp only [readBody, bodyBytes, List.append_assoc, Wire.text_zeroTerminated source hs,
    Descriptor.read_bytes format hf, bind, Except.bind, pure, Except.pure, ← hi, List.take_left,
    List.drop_left]

theorem take_of_drop_ne_nil (bs : Bytes) (n : Nat) (h : bs.drop n ≠ []) : (bs.take n).length = n := by
  -- a cut leaves nothing behind it, so where something is left nothing was cut
  rw [ne_eq, List.drop_eq_nil_iff] at h
  rw [List.length_take]
  omega

theorem readTarget_sound (bs rest : Bytes) (name : Text) (address : Bytes)
    (h : readTarget bs = .ok ((name, address), rest)) (hr : rest ≠ []) :
    Char.ofNat 0 ∉ name ∧ address.length < 0x10000 ∧ bs = targetBytes name address ++ rest := by
  obtain ⟨⟨t, bs₁⟩, ht, h⟩ := (Except.bind_eq_ok_iff _ _ _).mp h
  obtain ⟨⟨n, bs₂⟩, hn, h⟩ := (Except.bind_eq_ok_iff _ _ _).mp h
  simp only [pure, Except.pure, Except.ok.injEq, Prod.mk.injEq] at h
  obtain ⟨⟨rfl, rfl⟩, rfl⟩ := h
  obtain ⟨free, rfl⟩ := Wire.text_sound bs bs₁ t ht
  obtain ⟨short, rfl⟩ := Wire.number_sound 2 n bs₁ bs₂ hn
  have hl := take_of_drop_ne_nil bs₂ n hr
  refine ⟨free, by rw [hl]; exact short, ?_⟩
  rw [targetBytes, hl]
  simp only [List.append_assoc, List.take_append_drop]

theorem readBody_sound (bs rest : Bytes) (source : Text) (format : Descriptor) (info : Bytes)
    (h : readBody bs = .ok ((source, format, info), rest)) (hr : rest ≠ []) :
    Char.ofNat 0 ∉ source ∧ format.InRange ∧ info.length = format.infoLength ∧
      bs = bodyBytes source format info ++ rest := by
  obtain ⟨⟨t, bs₁⟩, ht, h⟩ := (Except.bind_eq_ok_iff _ _ _).mp h
  obtain ⟨⟨d, bs₂⟩, hd, h⟩ := (Except.bind_eq_ok_iff _ _ _).mp h
  simp only [pure, Except.pure, Except.ok.injEq, Prod.mk.injEq] at h
  obtain ⟨⟨rfl, rfl, rfl⟩, rfl⟩ := h
  obtain ⟨free, rfl⟩ := Wire.text_sound bs bs₁ t ht
  obtain ⟨range, rfl⟩ := Descriptor.read_sound bs₁ bs₂ d hd
  refine ⟨free, range, take_of_drop_ne_nil bs₂ _ hr, ?_⟩
  simp only [bodyBytes, List.append_assoc, List.take_append_drop]

theorem bytes_eq (f : Field) : f.bytes = (sentinel f.name.isSome).code ::
    ((f.name.elim [] fun name => targetBytes name (f.address.getD [])) ++
      bodyBytes f.source f.format f.info) := by
  simp only [bytes, head, bodyBytes]
  cases f.name <;> simp [sentinel, targetBytes]

theorem read_bytes (f : Field) (h : f.Canonical) : ∃ tail,
    f.bytes = (sentinel f.name.isSome).code :: tail ∧
      ∀ rest, read f.name.isSome (tail ++ rest) = .ok (f, rest) := by
  refine ⟨_, bytes_eq f, fun rest => ?_⟩
  have body := readBody_bytes f.source f.format f.info rest h.source h.format h.info
  obtain ⟨format, source, info, name, address⟩ := f
  cases name with
  | none =>
    have ha : address = none := by simpa using h.target.symm
    subst ha
    simp only [read, Option.elim_none, List.nil_append, body, bind, Except.bind, pure, Except.pure]
    simp
  | some name =>
    obtain ⟨address, rfl⟩ : ∃ a, address = some a := Option.isSome_iff_exists.mp (by simpa using h.target.symm)
    have target := readTarget_bytes name address (bodyBytes source format info ++ rest)
      (h.name name rfl) (h.address address rfl)
    simp only [read, Option.elim_some, Option.getD_some, List.append_assoc, target, body, bind, Except.bind,
      pure, Except.pure]
    simp

theorem read_sound (targeted : Bool) (bs rest : Bytes) (f : Field)
    (h : read targeted bs = .ok (f, rest)) (hr : rest ≠ []) :
    f.Canonical ∧ (sentinel targeted).code :: bs = f.bytes ++ rest := by
  cases targeted with
  | true =>
    obtain ⟨⟨⟨name, address⟩, bs₁⟩, ht, h⟩ := (Except.bind_eq_ok_iff _ _ _).mp h
    obtain ⟨⟨⟨source, format, info⟩, bs₂⟩, hb, h⟩ := (Except.bind_eq_ok_iff _ _ _).mp h
    simp only [pure, Except.pure, Except.ok.injEq, Prod.mk.injEq] at h
    obtain ⟨rfl, rfl⟩ := h
    obtain ⟨hs, hf, hi, rfl⟩ := readBody_sound bs₁ bs₂ source format info hb hr
    obtain ⟨hn, ha, rfl⟩ := readTarget_sound bs _ name address ht (by simp [hr])
    refine ⟨⟨hf, hs, ?_, rfl, ?_, hi⟩, ?_⟩
    · simpa using hn
    · simpa using ha
    · rw [bytes_eq]
      simp
  | false =>
    obtain ⟨⟨⟨source, format, info⟩, bs₂⟩, hb, h⟩ := (Except.bind_eq_ok_iff _ _ _).mp h
    simp only [pure, Except.pure, Except.ok.injEq, Prod.mk.injEq] at h
    obtain ⟨rfl, rfl⟩ := h
    obtain ⟨hs, hf, hi, rfl⟩ := readBody_sound bs bs₂ source format info hb hr
    refine ⟨⟨hf, hs, by simp, rfl, by simp, hi⟩, ?_⟩
    rw [bytes_eq]
    simp

end Field

namespace Instruction

/-- Bytes that spell instructions up to the end of a string, each literal being one byte. A sentinel only
stands for itself behind an escape; other bytes may be escaped too. -/
inductive Spelled : List Instruction → Bytes → Prop
  | stop : Spelled [] [Sentinel.stop.code]
  | plain (b : UInt8) (is : List Instruction) (bs : Bytes) (h : Sentinel.ofCode? b = none) :
      Spelled is bs → Spelled (.literal [b] :: is) (b :: bs)
  | escaped (b : UInt8) (is : List Instruction) (bs : Bytes) :
      Spelled is bs → Spelled (.literal [b] :: is) (Sentinel.escape.code :: b :: bs)
  | control (code : Sentinel) (is : List Instruction) (bs : Bytes)
      (h : code = .skip ∨ code = .whitespace) :
      Spelled is bs → Spelled (.control code :: is) (code.code :: bs)
  | field (f : Field) (is : List Instruction) (bs : Bytes) (h : f.Canonical) :
      Spelled is bs → Spelled (.field f :: is) (f.bytes ++ bs)

theorem readItems_field (targeted : Bool) (bs rest : Bytes) (f : Field)
    (h : Field.read targeted bs = .ok (f, rest)) :
    readItems ((Field.sentinel targeted).code :: bs) = prepend (.field f) (readItems rest) := by
  rw [readItems, Sentinel.ofCode?_code]
  cases targeted with
  | true | false =>
    simp only [Field.sentinel, if_true, Bool.false_eq_true, if_false]
    split
    · rename_i e he
      rw [h] at he
      simp at he
    · rename_i g tail hg
      rw [h, Except.ok.injEq, Prod.mk.injEq] at hg
      rw [hg.1, hg.2]

theorem readItems_spelled (is : List Instruction) (bs rest : Bytes) (h : Spelled is bs) :
    readItems (bs ++ rest) = .ok (is, rest) := by
  induction h with
  | stop => rw [List.singleton_append, readItems, Sentinel.ofCode?_code]
  | plain b is bs hb hs ih => 
    rw [List.cons_append, readItems, hb]
    simp only [ih, prepend, Except.map]
  | escaped b is bs hs ih =>
    rw [List.cons_append, readItems, Sentinel.ofCode?_code]
    simp [ih, prepend, Except.map]
  | control code is bs hc hs ih =>
    rw [List.cons_append, readItems, Sentinel.ofCode?_code]
    obtain rfl | rfl := hc
    all_goals simp only [ih, prepend, Except.map]
  | field f is bs hf hs ih =>
    obtain ⟨tail, hb, hread⟩ := f.read_bytes hf
    rw [List.append_assoc, hb, List.cons_append, readItems_field _ _ _ _ (hread (bs ++ rest)), ih]
    rfl

theorem Spelled.ne_nil {is : List Instruction} {bs : Bytes} (h : Spelled is bs) : bs ≠ [] := by
  induction h with
  | stop | plain | escaped | control => simp
  | field f is bs hf hs ih => simp [ih]

/-- What is read was spelled out in full: had an address, an info or an escape been cut short by the end of the
stream, nothing would be left in which the string could end. -/
theorem readItems_sound (bs rest : Bytes) (is : List Instruction)
    (h : readItems bs = .ok (is, rest)) : ∃ used, Spelled is used ∧ bs = used ++ rest := by
  fun_induction readItems bs generalizing is with
  | case1 => simp at h
  | case2 b tail hb =>
    simp only [Except.ok.injEq, Prod.mk.injEq] at h
    obtain ⟨rfl, rfl⟩ := h
    rw [← Sentinel.code_of_ofCode? b _ hb]
    exact ⟨_, .stop, rfl⟩
  | case3 b tail hb ih =>
    obtain ⟨js, hjs, rfl⟩ := prepend_eq_ok _ _ _ _ h
    obtain ⟨used, hs, hu⟩ := ih js hjs
    rw [← Sentinel.code_of_ofCode? b _ hb]
    -- an escape byte at the very end leaves nothing to end the string with
    cases tail with
    | nil => simp [hs.ne_nil] at hu
    | cons c tail =>
      rw [List.drop_one, List.tail_cons] at hu
      exact ⟨_, .escaped c js used hs, by simp [hu]⟩
  | case4 b tail hb ih | case5 b tail hb ih =>
    obtain ⟨js, hjs, rfl⟩ := prepend_eq_ok _ _ _ _ h
    obtain ⟨used, hs, rfl⟩ := ih js hjs
    rw [← Sentinel.code_of_ofCode? b _ hb]
    exact ⟨_, .control _ js used (by simp) hs, rfl⟩
  | case6 | case8 => simp at h
  | case7 b tail hb f tail' hf ih =>
    obtain ⟨js, hjs, rfl⟩ := prepend_eq_ok _ _ _ _ h
    obtain ⟨used, hs, rfl⟩ := ih js hjs
    obtain ⟨hc, ht⟩ := Field.read_sound false tail _ f hf (by simp [hs.ne_nil])
    rw [← Sentinel.code_of_ofCode? b _ hb]
    exact ⟨_, .field f js used hc hs, by rw [List.append_assoc, ← ht]; rfl⟩
  | case9 b tail hb f tail' hf ih =>
    obtain ⟨js, hjs, rfl⟩ := prepend_eq_ok _ _ _ _ h
    obtain ⟨used, hs, rfl⟩ := ih js hjs
    obtain ⟨hc, ht⟩ := Field.read_sound true tail _ f hf (by simp [hs.ne_nil])
    rw [← Sentinel.code_of_ofCode? b _ hb]
    exact ⟨_, .field f js used hc hs, by rw [List.append_assoc, ← ht]; rfl⟩
  | case10 b tail hb ih =>
    obtain ⟨js, hjs, rfl⟩ := prepend_eq_ok _ _ _ _ h
    obtain ⟨used, hs, rfl⟩ := ih js hjs
    exact ⟨_, .plain b js used hb hs, rfl⟩

theorem Spelled.canonical {is : List Instruction} {bs : Bytes} (h : Spelled is bs) :
    ∀ i ∈ is, i.Canonical := by
  induction h with
  | stop => simp
  | plain b is bs hb hs ih => exact List.forall_mem_cons.mpr ⟨by simp [Canonical], ih⟩
  | escaped b is bs hs ih => exact List.forall_mem_cons.mpr ⟨by simp [Canonical], ih⟩
  | control code is bs hc hs ih => exact List.forall_mem_cons.mpr ⟨hc, ih⟩
  | field f is bs hf hs ih => exact List.forall_mem_cons.mpr ⟨hf, ih⟩

theorem escapeByte_length (b : UInt8) : (escapeByte b).length ≤ 2 := by
  unfold escapeByte
  split <;> simp

theorem Spelled.length_le {is : List Instruction} {bs : Bytes} (h : Spelled is bs) :
    (stringBytes is).length ≤ bs.length := by
  induction h with
  | stop => simp [stringBytes]
  | plain b is bs hb hs ih =>
    simp only [stringBytes, List.length_append, List.flatMap_cons, bytes] at ih ⊢
    simp [escapeByte, hb] at ih ⊢
    omega
  | escaped b is bs hs ih =>
    have := escapeByte_length b
    simp only [stringBytes, List.length_append, List.flatMap_cons, bytes] at ih ⊢
    simp at ih ⊢
    omega
  | control code is bs hc hs ih =>
    simp only [stringBytes, List.length_append, List.flatMap_cons, bytes] at ih ⊢
    simp at ih ⊢
    omega
  | field f is bs hf hs ih =>
    simp only [stringBytes, List.length_append, List.flatMap_cons, bytes] at ih ⊢
    omega

/-- The instruction with a literal taken apart into its bytes. -/
def singles : Instruction → List Instruction
  | .literal data => data.map fun b => .literal [b]
  | i => [i]

theorem spelled_literal (data : Bytes) (is : List Instruction) (bs : Bytes) (h : Spelled is bs) :
    Spelled (singles (.literal data) ++ is) (bytes (.literal data) ++ bs) := by
  induction data with
  | nil => exact h
  | cons b data ih =>
    simp only [bytes, List.flatMap_cons, List.append_assoc, singles, List.map_cons, List.cons_append] at ih ⊢
    unfold escapeByte
    split
    · exact .escaped b _ _ ih
    · rename_i hb
      exact .plain b _ _ (by simpa using hb) ih

theorem spelled_stringBytes (is : List Instruction) (h : ∀ i ∈ is, i.Canonical) :
    Spelled (is.flatMap singles) (stringBytes is) := by
  induction is with
  | nil => exact .stop
  | cons i is ih =>
    rw [List.forall_mem_cons] at h
    have hs := ih h.2
    rw [List.flatMap_cons, stringBytes, List.flatMap_cons, List.append_assoc, ← stringBytes]
    cases i with
    | literal data => exact spelled_literal data _ _ hs
    | control code => exact .control code _ _ h.1 hs
    | field f => exact .field f _ _ h.1 hs

theorem merge_cons_congr (i : Instruction) (is js : List Instruction) (h : merge is = merge js) :
    merge (i :: is) = merge (i :: js) := by
  cases i <;> simp only [merge, h]

theorem merge_literals (a b : Bytes) (is : List Instruction) :
    merge (.literal a :: .literal b :: is) = merge (.literal (a ++ b) :: is) := by
  simp only [merge]
  cases merge is with
  | nil => rfl
  | cons j js => cases j <;> simp

theorem merge_singles_literal (data : Bytes) (h : data ≠ []) (is : List Instruction) :
    merge (singles (.literal data) ++ is) = merge (.literal data :: is) := by
  induction data with
  | nil => exact absurd rfl h
  | cons b data ih =>
    cases data with
    | nil => rfl
    | cons c data =>
      calc merge (.literal [b] :: (singles (.literal (c :: data)) ++ is))
        _ = merge (.literal [b] :: .literal (c :: data) :: is) := merge_cons_congr _ _ _ (ih (by simp))
        _ = merge (.literal (b :: c :: data) :: is) := merge_literals _ _ _

theorem merge_singles (is : List Instruction) (h : ∀ i ∈ is, i.Canonical) :
    merge (is.flatMap singles) = merge is := by
  induction is with
  | nil => rfl
  | cons i is ih =>
    rw [List.forall_mem_cons] at h
    have hm := ih h.2
    rw [List.flatMap_cons]
    cases i with
    | literal data => rw [merge_singles_literal data h.1, merge_cons_congr _ _ _ hm]
    | control code | field f => exact merge_cons_congr _ _ _ hm

theorem readString_sound (bs rest : Bytes) (is : List Instruction)
    (h : readString bs = .ok (is, rest)) :
    ∃ items used, Spelled items used ∧ is = merge items ∧ bs = used ++ rest := by
  obtain ⟨⟨items, tail⟩, hi, h⟩ := (Except.bind_eq_ok_iff _ _ _).mp h
  simp only [pure, Except.pure, Except.ok.injEq, Prod.mk.injEq] at h
  obtain ⟨rfl, rfl⟩ := h
  obtain ⟨used, hs, hu⟩ := readItems_sound bs tail items hi
  exact ⟨items, used, hs, rfl, hu⟩

end Instruction
end DeviceProtocol
