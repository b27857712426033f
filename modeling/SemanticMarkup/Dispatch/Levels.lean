namespace SemanticMarkup.Dispatch

-- How much waits at each depth, the top first. A list stands for itself followed by zeros; only
-- the first so many depths count. Less at a smaller depth is less, whatever waits below.
structure Levels where
  counts : List Nat

namespace Levels

def less : Nat → List Nat → List Nat → Prop
  | 0, _, _ => False
  | n + 1, a, b => a.headD 0 < b.headD 0 ∨ (a.headD 0 = b.headD 0 ∧ less n a.tail b.tail)

theorem less_wf (n : Nat) : WellFounded (less n) := by
  induction n with
  | zero => exact ⟨fun a => ⟨a, fun _ impossible => impossible.elim⟩⟩
  | succ n ih =>
    let pairs : WellFoundedRelation (Nat × List Nat) := Prod.lex ⟨_, Nat.lt_wfRel.wf⟩ ⟨less n, ih⟩
    refine Subrelation.wf ?_ (InvImage.wf (fun a : List Nat => (a.headD 0, a.tail)) pairs.wf)
    intro a b smaller
    show Prod.Lex (· < ·) (less n) (a.headD 0, a.tail) (b.headD 0, b.tail)
    rcases smaller with head | ⟨head, tail⟩
    · exact .left _ _ head
    · rw [head]
      exact .right _ tail

theorem less_mono {n m : Nat} (le : n ≤ m) {a b : List Nat} (smaller : less n a b) : less m a b := by
  induction n generalizing m a b with
  | zero => exact smaller.elim
  | succ n ih =>
    cases m with
    | zero => omega
    | succ m =>
      rcases smaller with head | ⟨head, tail⟩
      · exact .inl head
      · exact .inr ⟨head, ih (by omega) tail⟩

def waitsAt : Nat → List Nat → Prop
  | 0, a => 0 < a.headD 0
  | i + 1, a => waitsAt i a.tail

theorem less_of_waitsAt {i : Nat} {a : List Nat} (waits : waitsAt i a) : less (i + 1) [] a := by
  induction i generalizing a with
  | zero => exact .inl waits
  | succ i ih =>
    by_cases head : 0 < a.headD 0
    · exact .inl head
    · exact .inr ⟨by simp only [List.headD_nil]; omega, ih waits⟩

end Levels
end SemanticMarkup.Dispatch
