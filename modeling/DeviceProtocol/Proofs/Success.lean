import DeviceProtocol.Traced
set_option autoImplicit false

/-!
What it takes for a computation to succeed. Proofs about readers and compilers take a success apart with
these and never unfold a bind.
-/
namespace DeviceProtocol

namespace Except

variable {ε ε' α β : Type}

theorem bind_eq_ok_iff (x : Except ε α) (f : α → Except ε β) (b : β) :
    x >>= f = .ok b ↔ ∃ a, x = .ok a ∧ f a = .ok b := by
  cases x <;> simp [bind, Except.bind]

theorem map_eq_ok_iff (x : Except ε α) (f : α → β) (b : β) :
    x.map f = .ok b ↔ ∃ a, x = .ok a ∧ f a = b := by
  cases x <;> simp [Except.map]

theorem mapError_eq_ok_iff (x : Except ε α) (g : ε → ε') (a : α) :
    x.mapError g = .ok a ↔ x = .ok a := by
  constructor
  · intro h
    cases x <;> cases h
    rfl
  · rintro rfl
    rfl

end Except

namespace Traced

variable {α β : Type}

theorem bind_eq_ok_iff (x : Traced α) (f : α → Traced β) (b : β) :
    (x >>= f).result = .ok b ↔ ∃ a, x.result = .ok a ∧ (f a).result = .ok b := by
  rw [result_bind, Except.bind_eq_ok_iff]

theorem bind_of_ok (x : Traced α) (f : α → Traced β) (a : α) (h : x.result = .ok a) :
    (x >>= f).result = (f a).result := by
  rw [result_bind, h]
  rfl

theorem bind_of_error (x : Traced α) (f : α → Traced β) (e : Failure) (h : x.result = .error e) :
    (x >>= f).result = .error e := by
  rw [result_bind, h]
  rfl

theorem mapFault_eq_ok_iff (x : Traced α) (g : Fault → Fault) (a : α) :
    (x.mapFault g).result = .ok a ↔ x.result = .ok a := by
  rw [mapFault, Except.mapError_eq_ok_iff]

theorem located_eq_ok_iff (line : Int) (file : Option Text) (r : Except Failure α) (a : α) :
    (located line file r).result = .ok a ↔ r = .ok a := by
  rw [located, mapFault_eq_ok_iff, result_ofExcept]

theorem fault_ne_ok (cause : Cause) (line : Int) (file : Option Text) (a : α) :
    (fault cause line file : Traced α).result ≠ .ok a := by
  simp [fault]

theorem flatMap_forall (P : β → Prop) (f : α → Traced (List β)) (as : List α) (bs : List β)
    (step : ∀ a ∈ as, ∀ cs, (f a).result = .ok cs → ∀ c ∈ cs, P c)
    (h : (flatMap f as).result = .ok bs) : ∀ b ∈ bs, P b := by
  induction as generalizing bs with
  | nil =>
    simp only [flatMap, pure, Except.ok.injEq] at h
    simp [← h]
  | cons a as ih =>
    rw [List.forall_mem_cons] at step
    obtain ⟨front, hf, h⟩ := (bind_eq_ok_iff _ _ _).mp h
    obtain ⟨back, hb, h⟩ := (bind_eq_ok_iff _ _ _).mp h
    rw [result_pure, Except.ok.injEq] at h
    rw [← h, List.forall_mem_append]
    exact ⟨step.1 front hf, ih back step.2 hb⟩

theorem forAll_forall (P : β → Prop) (f : α → Traced β) (as : List α) (bs : List β)
    (step : ∀ a ∈ as, ∀ b, (f a).result = .ok b → P b)
    (h : (forAll f as).result = .ok bs) : ∀ b ∈ bs, P b := by
  induction as generalizing bs with
  | nil =>
    simp only [forAll, pure, Except.ok.injEq] at h
    simp [← h]
  | cons a as ih =>
    rw [List.forall_mem_cons] at step
    obtain ⟨b, hb, h⟩ := (bind_eq_ok_iff _ _ _).mp h
    obtain ⟨back, hbs, h⟩ := (bind_eq_ok_iff _ _ _).mp h
    rw [result_pure, Except.ok.injEq] at h
    rw [← h, List.forall_mem_cons]
    exact ⟨step.1 b hb, ih back step.2 hbs⟩

end Traced
end DeviceProtocol
