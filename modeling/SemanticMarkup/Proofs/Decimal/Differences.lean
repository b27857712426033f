import Mathlib.Algebra.Field.Basic
import Mathlib.Algebra.Field.Rat
import Mathlib.Data.Rat.Lemmas
import SemanticMarkup.Decimal.Arithmetic

namespace SemanticMarkup.Decimal

theorem roundedQuotient_pos {n d : Nat} (pos : 0 < d) (le : d ≤ n) : 0 < roundedQuotient n d := by
  have whole : 1 ≤ n / d := (Nat.one_le_div_iff pos).mpr le
  simp only [roundedQuotient]
  split
  · exact whole
  · split
    · exact Nat.succ_pos _
    · split
      · exact whole
      · exact Nat.succ_pos _

theorem twoTo_pos (k : Nat) : 0 < twoTo k := Nat.pow_pos (by decide)

theorem twoTo_mono {j k : Nat} (le : j ≤ k) : twoTo j ≤ twoTo k :=
  Nat.pow_le_pow_right (by decide) le

theorem twoTo_add (j k : Nat) : twoTo (j + k) = twoTo j * twoTo k := Nat.pow_add 2 j k

theorem twoTo_dvd {j k : Nat} (le : j ≤ k) : twoTo j ∣ twoTo k := Nat.pow_dvd_pow 2 le

theorem twoTo_log2_le {n : Nat} (nonzero : n ≠ 0) : twoTo (Nat.log2 n) ≤ n := Nat.log2_self_le nonzero

theorem lt_twoTo_log2 (n : Nat) : n < twoTo (Nat.log2 n + 1) := Nat.lt_log2_self

namespace Binary64

def grain : Nat := twoTo (-leastExponent).toNat

def Grained (r : Rat) : Prop := ∃ k : Int, r = k / grain

theorem scaledTo_pos {n d : Nat} (nonzero : n ≠ 0) (pos : 0 < d) (coarse : d ≤ grain) :
    0 < scaledTo n d (exponentFor n d) := by
  have least : leastExponent < 0 := by decide
  have size : exponentFor n d = leastExponent ∨
      exponentFor n d ≤ (Nat.log2 n : Int) - Nat.log2 d - 1 := by
    unfold exponentFor
    dsimp only
    split <;> omega
  have low := twoTo_log2_le nonzero
  have high := Nat.le_of_lt (lt_twoTo_log2 d)
  rw [scaledTo]
  rcases size with same | small
  · rw [same, if_neg (by omega)]
    refine roundedQuotient_pos pos (Nat.le_trans coarse ?_)
    exact Nat.le_mul_of_pos_left _ (Nat.pos_of_ne_zero nonzero)
  · split
    · rename_i up
      refine roundedQuotient_pos (Nat.mul_pos pos (twoTo_pos _)) ?_
      calc d * twoTo (exponentFor n d).toNat
          ≤ twoTo (Nat.log2 d + 1) * twoTo (exponentFor n d).toNat := Nat.mul_le_mul_right _ high
        _ = twoTo (Nat.log2 d + 1 + (exponentFor n d).toNat) := (twoTo_add _ _).symm
        _ ≤ twoTo (Nat.log2 n) := twoTo_mono (by omega)
        _ ≤ n := low
    · rename_i down
      refine roundedQuotient_pos pos ?_
      calc d ≤ twoTo (Nat.log2 d + 1) := high
        _ ≤ twoTo (Nat.log2 n + (-exponentFor n d).toNat) := twoTo_mono (by omega)
        _ = twoTo (Nat.log2 n) * twoTo (-exponentFor n d).toNat := twoTo_add _ _
        _ ≤ n * twoTo (-exponentFor n d).toNat := Nat.mul_le_mul_right _ low

theorem isZero_ofRatio {n d : Nat} (negative : Bool) (nonzero : n ≠ 0) (pos : 0 < d)
    (coarse : d ≤ grain) : (ofRatio negative n d).isZero = false := by
  have kept := scaledTo_pos nonzero pos coarse
  unfold ofRatio
  rw [if_neg nonzero]
  dsimp only
  split
  · split
    · rfl
    · exact beq_false_of_ne (twoTo_pos 52).ne'
  · split
    · rfl
    · exact beq_false_of_ne kept.ne'

theorem Grained.den_le {r : Rat} (grained : Grained r) : r.den ≤ grain := by
  obtain ⟨k, rfl⟩ := grained
  have divides := Rat.den_dvd k grain
  rw [Rat.divInt_eq_div, Int.cast_natCast, Int.natCast_dvd_natCast] at divides
  exact Nat.le_of_dvd (twoTo_pos _) divides

theorem Grained.add {r s : Rat} (first : Grained r) (second : Grained s) : Grained (r + s) := by
  obtain ⟨j, rfl⟩ := first
  obtain ⟨k, rfl⟩ := second
  exact ⟨j + k, by rw [Int.cast_add, add_div]⟩

theorem exact_eq (negative : Bool) (m : Nat) (e : Int) :
    exact negative m e =
      ((if negative then -((fraction m e).1 : Int) else (fraction m e).1 : Int) : Rat) /
        (fraction m e).2 :=
  Rat.mkRat_eq_div ..

theorem grained_exact (negative : Bool) (m : Nat) {e : Int} (bound : leastExponent ≤ e) :
    Grained (exact negative m e) := by
  have divides : (fraction m e).2 ∣ grain := by
    unfold fraction grain
    split
    · exact Nat.one_dvd _
    · exact twoTo_dvd (by omega)
  obtain ⟨c, whole⟩ := divides
  have filled : (grain : Rat) ≠ 0 := Nat.cast_ne_zero.mpr (twoTo_pos _).ne'
  rw [whole, Nat.cast_mul] at filled
  rw [exact_eq, Grained, whole]
  refine ⟨(if negative then -((fraction m e).1 : Int) else (fraction m e).1) * c, ?_⟩
  rw [Int.cast_mul, Int.cast_natCast, Nat.cast_mul,
    mul_div_mul_right _ _ (right_ne_zero_of_mul filled)]

theorem exact_negated (negative : Bool) (m : Nat) (e : Int) :
    exact (!negative) m e = -exact negative m e := by
  rw [exact_eq, exact_eq, ← neg_div, ← Int.cast_neg]
  cases negative <;> simp

theorem isZero_ofRat {r : Rat} (grained : Grained r) (nonzero : r ≠ 0) : (ofRat r).isZero = false :=
  isZero_ofRatio _ (Int.natAbs_ne_zero.mpr (Rat.num_ne_zero.mpr nonzero)) r.den_pos grained.den_le

theorem isZero_minus_iff {s t : Bool} {m n : Nat} {e f : Int} (fine : leastExponent ≤ e)
    (also : leastExponent ≤ f) :
    ((finite s m e).minus (finite t n f)).isZero = true ↔ exact s m e = exact t n f := by
  have grained := (grained_exact s m fine).add (grained_exact (!t) n also)
  rw [exact_negated] at grained
  rw [minus, negated, plus, exact_negated]
  split
  · rename_i same
    exact ⟨fun _ => add_neg_eq_zero.mp same, fun _ => rfl⟩
  · rename_i differs
    rw [isZero_ofRat grained differs]
    exact ⟨nofun, fun same => absurd (add_neg_eq_zero.mpr same) differs⟩

end Binary64
end SemanticMarkup.Decimal
