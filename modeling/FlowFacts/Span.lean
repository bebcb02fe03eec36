namespace FlowFacts

/-- A half-open range of source positions, counted from the start of the text. One whose end lies
before its start is empty. -/
structure Span where
  start : Nat
  stop : Nat
  deriving DecidableEq

namespace Span

/-- The number of positions in the range, none if it runs backwards. -/
def length (s : Span) : Nat := s.stop - s.start

def isEmpty (s : Span) : Bool := s.start ≥ s.stop

def single (n : Nat) : Span := ⟨n, n + 1⟩

def render (s : Span) : String := s!"Span({s.start}..{s.stop})"

theorem length_eq_zero_iff (s : Span) : s.length = 0 ↔ s.isEmpty = true := by
  simp [length, isEmpty, Nat.sub_eq_zero_iff_le]

@[simp] theorem length_single (n : Nat) : (single n).length = 1 := by
  simp [length, single]

theorem single_injective {m n : Nat} (h : single m = single n) : m = n := by
  simp only [single, mk.injEq] at h
  exact h.1

end Span
end FlowFacts
