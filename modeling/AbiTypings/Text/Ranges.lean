/-!
# Sets of characters

A set of characters is written as a list of closed ranges of code points.
-/

namespace AbiTypings.Text

abbrev Ranges := List (Nat × Nat)

namespace Ranges

def has (rs : Ranges) (c : Char) : Bool :=
  rs.any fun r ↦ decide (r.1 ≤ c.toNat) && decide (c.toNat ≤ r.2)

@[simp] theorem has_nil (c : Char) : has [] c = false := rfl

@[simp] theorem has_cons (r : Nat × Nat) (rs : Ranges) (c : Char) :
    has (r :: rs) c = (decide (r.1 ≤ c.toNat) && decide (c.toNat ≤ r.2) || has rs c) := rfl

theorem has_eq_true_iff {rs : Ranges} {c : Char} :
    has rs c = true ↔ ∃ r ∈ rs, r.1 ≤ c.toNat ∧ c.toNat ≤ r.2 := by
  simp [has]

end Ranges

end AbiTypings.Text
