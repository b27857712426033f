import SemanticMarkup.Proofs.Text.Blanks
import SemanticMarkup.Text.Casing

namespace SemanticMarkup.Text

theorem lowerFrom_flatMap (before : List Char) {cs : List Char} (plain : ∀ c ∈ cs, c.toNat ≠ 0x3A3) :
    lowerFrom before cs = cs.flatMap lowerOf := by
  induction cs generalizing before with
  | nil => rfl
  | cons c rest ih =>
    have others := ih (c :: before) fun d member => plain d (List.mem_cons_of_mem _ member)
    rw [lowerFrom, if_neg (plain c List.mem_cons_self), others, List.flatMap_cons]

theorem lowerOf_sigma {c : Char} (sigma : c.toNat = 0x3A3) : lowerOf c ≠ [c] := by
  have same : c = 'Σ' := Char.toNat_inj.mp sigma
  subst same
  decide +kernel

namespace Span

def moved (s : Span) (distance : Int) : Span :=
  ⟨(s.first + distance).toNat, (s.last + distance).toNat, s.step⟩

-- Spans that are seen to have nothing in common: one lies before the other, they take turns, or
-- the first is a single code point.
def apart (s t : Span) : Bool :=
  bif Nat.ble t.first s.last then
    bif Nat.ble s.first t.last then
      (s.step == 2 && t.step == 2 && s.first % 2 != t.first % 2) ||
        (s.first == s.last && !t.holds s.first)
    else true
  else true

theorem holds_of_apart {s t : Span} {n : Nat} (apart : s.apart t = true) (inside : s.holds n = true) :
    t.holds n = false := by
  obtain ⟨low, high, stepped⟩ := (holds_iff s n).mp inside
  refine Bool.eq_false_iff.mpr fun other => ?_
  obtain ⟨lowToo, highToo, steppedToo⟩ := (holds_iff t n).mp other
  have before : Nat.ble t.first s.last = true := Nat.ble_eq.mpr (by omega)
  have behind : Nat.ble s.first t.last = true := Nat.ble_eq.mpr (by omega)
  rw [Span.apart, before, behind, cond_true, cond_true, Bool.or_eq_true] at apart
  rcases apart with turns | single
  · simp only [Bool.and_eq_true, beq_iff_eq, bne_iff_ne] at turns
    obtain ⟨⟨two, twoToo⟩, odd⟩ := turns
    rw [two] at stepped
    rw [twoToo] at steppedToo
    omega
  · simp only [Bool.and_eq_true, beq_iff_eq, Bool.not_eq_true'] at single
    have only : n = s.first := by omega
    rw [only, single.2] at other
    cases other

theorem holds_moved {s : Span} {n : Nat} {distance : Int} (inside : s.holds n = true)
    (low : 0 ≤ s.first + distance) : (s.moved distance).holds (n + distance).toNat = true := by
  obtain ⟨first, last, stepped⟩ := (holds_iff s n).mp inside
  refine (holds_iff _ _).mpr ⟨?_, ?_, ?_⟩
  · show (s.first + distance).toNat ≤ (n + distance).toNat
    omega
  · show (n + distance).toNat ≤ (s.last + distance).toNat
    omega
  · have same : (n + distance).toNat - (s.first + distance).toNat = n - s.first := by omega
    show ((n + distance).toNat - (s.first + distance).toNat) % s.step = 0
    rw [same]
    exact stepped

end Span

theorem capitals_moved :
    ∀ entry ∈ CaseTable.lowered, 0 ≤ entry.1.first + entry.2 ∧
      (entry.1.moved entry.2).apart ⟨0x130, 0x130, 1⟩ = true ∧
      CaseTable.lowered.all (fun other => (entry.1.moved entry.2).apart other.1) = true := by
  decide +kernel

theorem lowerOf_of_outside {c : Char}
    (outside : ∀ entry ∈ CaseTable.lowered, entry.1.holds c.toNat = false)
    (undotted : c.toNat ≠ 0x130) : lowerOf c = [c] := by
  by_cases ascii : c.toNat < 0x80
  · have small : c.toLower = c :=
      ascii_cases (P := fun c => (⟨0x41, 0x5A, 1⟩ : Span).holds c.toNat = false → c.toLower = c)
        (by decide +kernel) ascii (outside (⟨0x41, 0x5A, 1⟩, 32) (by decide +kernel))
    rw [lowerOf_ascii ascii, small]
  · have missing : CaseTable.lowered.find? (fun entry => entry.1.holds c.toNat) = none := by
      rw [List.find?_eq_none]
      intro entry member
      rw [outside entry member]
      exact Bool.false_ne_true
    rw [lowerOf, if_neg ascii, if_neg undotted, missing]

theorem lowerOf_moved {entry : Span × Int} (member : entry ∈ CaseTable.lowered) {n : Nat}
    (inside : entry.1.holds n = true) :
    lowerOf (Char.ofNat (n + entry.2).toNat) = [Char.ofNat (n + entry.2).toNat] := by
  obtain ⟨low, undotted, others⟩ := capitals_moved entry member
  have there := Span.holds_moved inside low
  by_cases valid : (n + entry.2).toNat.isValidChar
  · have point : (Char.ofNat (n + entry.2).toNat).toNat = (n + entry.2).toNat := by
      rw [Char.ofNat, dif_pos valid]
      rfl
    refine lowerOf_of_outside (fun other present => ?_) fun dotted => ?_
    · rw [point]
      exact Span.holds_of_apart (List.all_eq_true.mp others other present) there
    · rw [point] at dotted
      have outside := Span.holds_of_apart undotted there
      rw [dotted] at outside
      cases outside
  · rw [Char.ofNat, dif_neg valid]
    decide +kernel

theorem lowerOf_rare {c : Char} (rare : c.toNat = 0x307 ∨ c.toNat = 0x3C2 ∨ c.toNat = 0x3C3) :
    lowerOf c = [c] := by
  have outside : ∀ entry ∈ CaseTable.lowered,
      entry.1.holds 0x307 = false ∧ entry.1.holds 0x3C2 = false ∧ entry.1.holds 0x3C3 = false := by
    decide +kernel
  refine lowerOf_of_outside (fun entry member => ?_) (by omega)
  obtain ⟨dot, final, middle⟩ := outside entry member
  rcases rare with same | same | same
  · rwa [same]
  · rwa [same]
  · rwa [same]

theorem lowerOf_of_mem_lowerOf {c d : Char} (member : d ∈ lowerOf c) : lowerOf d = [d] := by
  unfold lowerOf at member
  split at member
  · rename_i ascii
    rw [List.mem_singleton.mp member]
    exact ascii_cases (P := fun c => lowerOf c.toLower = [c.toLower]) (by decide +kernel) ascii
  · split at member
    · rcases List.mem_cons.mp member with rfl | dot
      · exact lowerOf_ascii (by decide)
      · rw [List.mem_singleton.mp dot]
        exact lowerOf_rare (.inl rfl)
    · split at member
      · rename_i entry found
        rw [List.mem_singleton.mp member]
        have inside := List.find?_some found
        exact lowerOf_moved (List.mem_of_find?_eq_some found) inside
      · rename_i undotted _ missing
        rw [List.mem_singleton.mp member]
        refine lowerOf_of_outside (fun entry present => ?_) undotted
        exact Bool.eq_false_iff.mpr (List.find?_eq_none.mp missing entry present)

theorem lowerOf_of_mem_lowerFrom {before cs : List Char} {d : Char} (member : d ∈ lowerFrom before cs) :
    lowerOf d = [d] := by
  induction cs generalizing before with
  | nil => cases member
  | cons c rest ih =>
    rw [lowerFrom] at member
    rcases List.mem_append.mp member with here | later
    · split at here
      · rw [List.mem_singleton.mp here]
        split
        · exact lowerOf_rare (.inr (.inl rfl))
        · exact lowerOf_rare (.inr (.inr rfl))
      · exact lowerOf_of_mem_lowerOf here
    · exact ih later

theorem lower_of_settled {cs : List Char} (settled : ∀ c ∈ cs, lowerOf c = [c]) : lower cs = cs := by
  have plain : ∀ c ∈ cs, c.toNat ≠ 0x3A3 := fun c member sigma => lowerOf_sigma sigma (settled c member)
  rw [lower, lowerFrom_flatMap [] plain]
  calc cs.flatMap lowerOf
      = cs.flatMap (fun c => [c]) := List.flatMap_congr settled
    _ = cs := List.flatMap_singleton' cs

theorem lowered_lowered (s : String) : lowered (lowered s) = lowered s := by
  have again : lower (lower s.toList) = lower s.toList :=
    lower_of_settled fun _ => lowerOf_of_mem_lowerFrom
  rw [lowered, lowered, String.toList_ofList, again]

end SemanticMarkup.Text
