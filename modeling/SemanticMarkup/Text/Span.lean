namespace SemanticMarkup.Text

-- Code points `first`, `first + step`, … up to `last`. Tables of character classes are lists of
-- spans; a class holds a character when one of its spans does.
structure Span where
  first : Nat
  last : Nat
  step : Nat
  deriving DecidableEq, Repr

namespace Span

def holds (s : Span) (n : Nat) : Bool :=
  s.first ≤ n && n ≤ s.last && (n - s.first) % s.step == 0

def anyHolds (table : List Span) (c : Char) : Bool := table.any (·.holds c.toNat)

theorem holds_iff (s : Span) (n : Nat) :
    s.holds n = true ↔ s.first ≤ n ∧ n ≤ s.last ∧ (n - s.first) % s.step = 0 := by
  simp [holds, and_assoc]

end Span
end SemanticMarkup.Text
