namespace FlowFacts

/-- A set of characters: the first code point in it, the next one that is not, and so on. -/
structure CharSet where
  bounds : List Nat

namespace CharSet

/-- A character is a member if the number of changes up to it is odd. -/
def contains (s : CharSet) (c : Char) : Bool := (s.bounds.countP (· ≤ c.toNat)) % 2 = 1

theorem contains_range (lo hi : Nat) (c : Char) (h : lo ≤ hi) :
    (CharSet.mk [lo, hi]).contains c = decide (lo ≤ c.toNat ∧ c.toNat < hi) := by
  by_cases h₁ : lo ≤ c.toNat
  · by_cases h₂ : hi ≤ c.toNat
    · simp [contains, h₁, h₂]
    · simp [contains, h₁, h₂, Nat.lt_of_not_le h₂]
  · have h₂ : ¬ hi ≤ c.toNat := fun h₃ => h₁ (Nat.le_trans h h₃)
    simp [contains, h₁, h₂]

end CharSet
end FlowFacts
