set_option autoImplicit false

namespace DeviceProtocol

structure CodeSet where
  ranges : List (Nat × Nat)

namespace CodeSet

def contains (s : CodeSet) (n : Nat) : Bool :=
  s.ranges.any fun r => r.1 ≤ n && n ≤ r.2

theorem contains_iff (s : CodeSet) (n : Nat) :
    s.contains n = true ↔ ∃ r ∈ s.ranges, r.1 ≤ n ∧ n ≤ r.2 := by
  simp [contains]

end CodeSet
end DeviceProtocol
