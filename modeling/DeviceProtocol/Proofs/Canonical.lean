import Mathlib.Data.List.Chain
import DeviceProtocol.Program.Wire
import DeviceProtocol.Proofs.Wire
set_option autoImplicit false

/-!
Canonical programs: those that the stream can hold, in the one form in which they are read back. Strings have
neither empty literals nor two literals side by side, because the stream does not tell where one literal
ends; fields say of themselves what the stream says of them.
-/
namespace DeviceProtocol

/-- Texts in the stream end with a zero byte, so they hold no null character; the length of an address and
that of an info have two bytes each. -/
structure Field.Canonical (f : Field) : Prop where
  format : f.format.InRange
  source : Char.ofNat 0 ∉ f.source
  name : ∀ name ∈ f.name, Char.ofNat 0 ∉ name
  target : f.name.isSome = f.address.isSome
  address : ∀ address ∈ f.address, address.length < 0x10000
  info : f.info.length = f.format.infoLength

instance (f : Field) : Decidable f.Canonical :=
  decidable_of_iff
    (f.format.InRange ∧ Char.ofNat 0 ∉ f.source ∧ (∀ name ∈ f.name, Char.ofNat 0 ∉ name) ∧
      f.name.isSome = f.address.isSome ∧ (∀ address ∈ f.address, address.length < 0x10000) ∧
      f.info.length = f.format.infoLength)
    ⟨fun ⟨h, s, n, t, a, i⟩ => ⟨h, s, n, t, a, i⟩, fun ⟨h, s, n, t, a, i⟩ => ⟨h, s, n, t, a, i⟩⟩

namespace Instruction

def Canonical : Instruction → Prop
  | .literal data => data ≠ []
  | .control code => code = .skip ∨ code = .whitespace
  | .field f => f.Canonical

instance : DecidablePred Canonical
  | .literal data => inferInstanceAs (Decidable (data ≠ []))
  | .control code => inferInstanceAs (Decidable (code = .skip ∨ code = .whitespace))
  | .field f => inferInstanceAs (Decidable f.Canonical)

def isLiteral : Instruction → Bool
  | .literal _ => true
  | _ => false

/-- Of two neighbours one is no literal. -/
def Apart (i j : Instruction) : Prop := (i.isLiteral && j.isLiteral) = false

instance (i j : Instruction) : Decidable (Apart i j) :=
  inferInstanceAs (Decidable ((i.isLiteral && j.isLiteral) = false))

structure CanonicalString (is : List Instruction) : Prop where
  each : ∀ i ∈ is, i.Canonical
  apart : is.IsChain Apart

instance (is : List Instruction) : Decidable (CanonicalString is) :=
  decidable_of_iff ((∀ i ∈ is, i.Canonical) ∧ is.IsChain Apart)
    ⟨fun ⟨e, a⟩ => ⟨e, a⟩, fun ⟨e, a⟩ => ⟨e, a⟩⟩

theorem merge_apart (is : List Instruction) : (merge is).IsChain Apart := by
  fun_induction merge is with
  | case1 => exact .nil
  | case2 a is b js h ih =>
    rw [h, List.isChain_cons] at ih
    exact List.isChain_cons.mpr ⟨ih.1, ih.2⟩
  | case3 a is h ih =>
    refine List.isChain_cons.mpr ⟨fun j hj => ?_, ih⟩
    obtain ⟨js, hjs⟩ := List.head?_eq_some_iff.mp hj
    cases j with
    | literal b => exact (h b js hjs).elim
    | control code | field f => rfl
  | case4 i is h ih =>
    refine List.isChain_cons.mpr ⟨fun j _ => ?_, ih⟩
    cases i with
    | literal a => exact (h a rfl).elim
    | control code | field f => rfl

theorem merge_each (is : List Instruction) (h : ∀ i ∈ is, i.Canonical) :
    ∀ i ∈ merge is, i.Canonical := by
  fun_induction merge is with
  | case1 => simp
  | case2 a is b js hm ih =>
    rw [hm] at ih
    rw [List.forall_mem_cons] at h
    have ht := List.forall_mem_cons.mp (ih h.2)
    refine List.forall_mem_cons.mpr ⟨?_, ht.2⟩
    exact List.append_ne_nil_of_left_ne_nil h.1 b
  | case3 a is hm ih | case4 a is hm ih =>
    rw [List.forall_mem_cons] at h
    exact List.forall_mem_cons.mpr ⟨h.1, ih h.2⟩

theorem canonicalString_merge (is : List Instruction) (h : ∀ i ∈ is, i.Canonical) :
    CanonicalString (merge is) :=
  ⟨merge_each is h, merge_apart is⟩

theorem merge_of_apart (is : List Instruction) (h : is.IsChain Apart) : merge is = is := by
  fun_induction merge is with
  | case1 => rfl
  | case2 a is b js hm ih =>
    -- the rest starts with a literal of its own, next to this one
    rw [ih h.of_cons] at hm
    rw [hm, List.isChain_cons_cons] at h
    exact absurd h.1 (by simp [Apart, isLiteral])
  | case3 a is hm ih | case4 a is hm ih => rw [ih h.of_cons]

theorem bytes_merge (is : List Instruction) : (merge is).flatMap bytes = is.flatMap bytes := by
  fun_induction merge is <;> simp_all [bytes]

theorem fits_of_canonical (i : Instruction) (h : i.Canonical) : i.fits = true := by
  cases i with
  | literal data => rfl
  | control code => rfl
  | field f =>
    simp only [fits, Field.fits, Bool.or_eq_true, decide_eq_true_eq]
    cases ha : f.address with
    | none => simp
    | some address => exact .inr (h.address address ha)

end Instruction

namespace Operand

def Canonical : Operand → Prop
  | .string is => Instruction.CanonicalString is
  | .number n => n.toNat < 0x100000000

instance : DecidablePred Canonical
  | .string is => inferInstanceAs (Decidable (Instruction.CanonicalString is))
  | .number n => inferInstanceAs (Decidable (n.toNat < 0x100000000))

end Operand

/-- The code that ends a program is no command, and a command has the operands its code asks for. -/
structure Command.Canonical (c : Command) : Prop where
  opcode : c.opcode ≠ .stop
  kinds : c.operands.map Operand.kind = c.opcode.operands
  each : ∀ o ∈ c.operands, o.Canonical

instance (c : Command) : Decidable c.Canonical :=
  decidable_of_iff
    (c.opcode ≠ .stop ∧ c.operands.map Operand.kind = c.opcode.operands ∧ ∀ o ∈ c.operands, o.Canonical)
    ⟨fun ⟨s, k, e⟩ => ⟨s, k, e⟩, fun ⟨s, k, e⟩ => ⟨s, k, e⟩⟩

namespace Program

def Canonical (p : Program) : Prop := ∀ c ∈ p.commands, c.Canonical

instance (p : Program) : Decidable p.Canonical :=
  inferInstanceAs (Decidable (∀ c ∈ p.commands, c.Canonical))

theorem fits_of_canonical (p : Program) (h : p.Canonical) : p.fits = true := by
  simp only [fits, Command.fits, List.all_eq_true]
  intro c hc o ho
  have hco := (h c hc).each o ho
  cases o with
  | number n => rfl
  | string is => exact List.all_eq_true.mpr fun i hi => Instruction.fits_of_canonical i (hco.each i hi)

theorem pack_of_canonical (p : Program) (h : p.Canonical) : p.pack = .ok p.bytes := by
  rw [pack, if_pos (p.fits_of_canonical h)]

end Program
end DeviceProtocol
