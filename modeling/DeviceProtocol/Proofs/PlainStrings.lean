import Mathlib.Data.List.Forall2
import DeviceProtocol.Compile.Strings
import DeviceProtocol.Proofs.Success
set_option autoImplicit false

namespace DeviceProtocol

theorem Traced.flatMap_eq_ok_iff {α β : Type} (f : α → Traced (List β)) (as : List α) (bs : List β) :
    (flatMap f as).result = .ok bs ↔
      ∃ parts, List.Forall₂ (fun a part => (f a).result = .ok part) as parts ∧ bs = parts.flatten := by
  induction as generalizing bs with
  | nil => simp [flatMap, pure, eq_comm]
  | cons a as ih =>
    constructor
    · intro h
      obtain ⟨front, hf, h⟩ := (bind_eq_ok_iff _ _ _).mp h
      obtain ⟨back, hb, h⟩ := (bind_eq_ok_iff _ _ _).mp h
      cases h
      obtain ⟨parts, hp, rfl⟩ := (ih back).mp hb
      exact ⟨front :: parts, .cons hf hp, rfl⟩
    · rintro ⟨parts, hp, rfl⟩
      cases hp with
      | @cons _ front _ parts hf hp =>
        have hb := (ih parts.flatten).mpr ⟨parts, hp, rfl⟩
        show (f a >>= _).result = _
        rw [bind_of_ok _ _ front hf, bind_of_ok _ _ _ hb]
        rfl

theorem Traced.flatMap_append {α β : Type} (f : α → Traced (List β)) (as bs : List α) :
    (flatMap f (as ++ bs)).result =
      (flatMap f as).result >>= fun front => (flatMap f bs).result >>= fun back => .ok (front ++ back) := by
  induction as with
  | nil =>
    show (flatMap f bs).result = (flatMap f bs).result >>= fun back => .ok back
    cases (flatMap f bs).result <;> rfl
  | cons a as ih =>
    simp only [List.cons_append, flatMap, result_bind, result_pure, ih]
    cases (f a).result with
    | error e => rfl
    | ok part =>
      cases (flatMap f as).result with
      | error e => rfl
      | ok front =>
        cases (flatMap f bs).result with
        | error e => rfl
        | ok back =>
          show _ = Except.ok (part ++ front ++ back)
          rw [List.append_assoc]
          rfl

theorem lineRuns_flatten (is : List StringItem) : (lineRuns is).flatten = is := by
  induction is with
  | nil => rfl
  | cons i is ih =>
    rw [lineRuns]
    split
    · rename_i j js runs hruns
      rw [hruns] at ih
      split <;> simpa using ih
    · simpa using ih

theorem stringItems_eq_map (ts : List Token) (unsigned : ∀ t ∈ ts, t.isSign = false) :
    stringItems ts = ts.map .token := by
  fun_induction stringItems ts with
  | case1 => rfl
  | case2 t => rfl
  | case3 t u ts signed ih =>
    have hsign := unsigned t (List.mem_cons_self ..)
    simp [hsign] at signed
  | case4 t u ts _ ih =>
    rw [ih fun v hv => unsigned v (List.mem_cons_of_mem _ hv)]
    rfl

namespace Compiler

variable (k : Compiler) (p : Protocol)

theorem compileLines_plain (position : Nat) (runs : List (List StringItem)) :
    (k.compileLines p .plain position runs).result =
      (Traced.flatMap (k.encode p .plain k.depthLimit.toNat) runs.flatten).result := by
  induction runs generalizing position with
  | nil => rfl
  | cons run runs ih =>
    have line : (k.compileLine p .plain position run).result =
        (Traced.flatMap (k.encode p .plain k.depthLimit.toNat) run).result := by
      simp only [compileLine, Traced.result_bind, Traced.result_pure]
      cases (Traced.flatMap (k.encode p .plain k.depthLimit.toNat) run).result <;> rfl
    rw [List.flatten_cons, Traced.flatMap_append, ← line]
    simp only [compileLines, Traced.result_bind, ih]
    rfl

theorem compileString_plain_iff (ts : List Token) (is : List Instruction) :
    (k.compileString p .plain ts).result = .ok is ↔
      ∃ parts, List.Forall₂ (fun i part => (k.encode p .plain k.depthLimit.toNat i).result = .ok part)
        (stringItems ts) parts ∧ is = Cell.toInstructions parts.flatten := by
  rw [compileString, Traced.bind_eq_ok_iff]
  simp only [compileLines_plain, lineRuns_flatten, Traced.flatMap_eq_ok_iff, Traced.result_pure,
    Except.ok.injEq]
  constructor
  · rintro ⟨_, ⟨parts, hp, rfl⟩, rfl⟩
    exact ⟨parts, hp, rfl⟩
  · rintro ⟨parts, hp, rfl⟩
    exact ⟨_, ⟨parts, hp, rfl⟩, rfl⟩

end Compiler
end DeviceProtocol
