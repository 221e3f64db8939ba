/-!
# Sets of characters given by ranges of code points
-/

namespace OpenSound

/-- A set of characters, as a list of closed ranges of code points. -/
structure CharSet where
  ranges : List (Nat × Nat)

namespace CharSet

/-- Whether some range of the set holds the character. -/
def contains (s : CharSet) (c : Char) : Bool :=
  s.ranges.any fun r => r.1 ≤ c.toNat && c.toNat ≤ r.2

theorem contains_iff (s : CharSet) (c : Char) :
    s.contains c = true ↔ ∃ r ∈ s.ranges, r.1 ≤ c.toNat ∧ c.toNat ≤ r.2 := by
  simp [contains, List.any_eq_true]

end CharSet

end OpenSound
