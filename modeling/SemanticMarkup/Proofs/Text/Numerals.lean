import SemanticMarkup.Text.Numeral

namespace SemanticMarkup.Text

theorem digitValue_of_digit {c : Char} (digit : c.isDigit = true) :
    digitValue? c = some (c.toNat - 48) := by
  have low : c.toNat < 0x80 := Nat.lt_of_le_of_lt (digit_bounds digit).2 (by decide)
  rw [digitValue?, if_pos low, if_pos digit]

theorem not_outerBlank_of_digit {c : Char} (digit : c.isDigit = true) : isOuterBlank c = false := by
  obtain ⟨least, most⟩ := digit_bounds digit
  simp only [isOuterBlank, isBlank, Bool.and_eq_false_iff, Bool.or_eq_false_iff,
    decide_eq_false_iff_not, beq_eq_false_iff_ne]
  omega

theorem leadingDigits_of_digits {cs : List Char} (digits : ∀ c ∈ cs, c.isDigit = true)
    {afterDigit : Bool} (filled : afterDigit = true ∨ cs ≠ []) :
    leadingDigits? afterDigit cs = some (cs.map fun c => c.toNat - 48, []) := by
  induction cs generalizing afterDigit with
  | nil =>
    rcases filled with rfl | none
    · rfl
    · exact absurd rfl none
  | cons c rest ih =>
    obtain ⟨first, others⟩ := List.forall_mem_cons.mp digits
    rw [leadingDigits?, digitValue_of_digit first]
    dsimp only
    rw [ih others (.inl rfl)]
    rfl

theorem numberOf_digits (cs : List Char) :
    numberOf (cs.map fun c => c.toNat - 48) = Nat.ofDigitChars 10 cs 0 := by
  rw [numberOf, List.foldl_map, Nat.ofDigitChars]
  simp only [Nat.mul_comm]
  rfl

theorem readSign_digit {c : Char} (digit : c.isDigit = true) (rest : List Char) :
    readSign (c :: rest) = (false, c :: rest) := by
  unfold readSign
  split
  · rename_i shape
    cases (List.cons.inj shape).1
    cases digit
  · rename_i shape
    cases (List.cons.inj shape).1
    cases digit
  · rfl

theorem readInt_digits {cs : List Char} (digits : ∀ c ∈ cs, c.isDigit = true) (filled : cs ≠ [])
    (short : cs.length ≤ mostDigits) :
    readInt cs = .ok (Nat.ofDigitChars 10 cs 0 : Nat) ∧
      readInt ('-' :: cs) = .ok (-(Nat.ofDigitChars 10 cs 0 : Nat)) := by
  have leading : leadingDigits? false cs = some (cs.map fun c => c.toNat - 48, []) :=
    leadingDigits_of_digits digits (.inr filled)
  have few : ¬mostDigits < (cs.map fun c => c.toNat - 48).length := by
    rw [List.length_map]
    exact Nat.not_lt.mpr short
  constructor
  · cases cs with
    | nil => exact absurd rfl filled
    | cons c rest =>
      have digit := digits c List.mem_cons_self
      have solid : (c :: rest).dropWhile isOuterBlank = c :: rest :=
        List.dropWhile_cons_of_neg (Bool.eq_false_iff.mp (not_outerBlank_of_digit digit))
      simp only [readInt, solid, readSign_digit digit, leading, if_neg few, numberOf_digits]
      rfl
  · have solid : ('-' :: cs).dropWhile isOuterBlank = '-' :: cs :=
      List.dropWhile_cons_of_neg (by decide)
    have sign : readSign ('-' :: cs) = (true, cs) := rfl
    simp only [readInt, solid, sign, leading, if_neg few, numberOf_digits]
    rfl

theorem toList_toString (n : Int) :
    (toString n).toList =
      if n < 0 then '-' :: Nat.toDigits 10 n.natAbs else Nat.toDigits 10 n.natAbs := by
  cases n with
  | ofNat k =>
    have positive : ¬Int.ofNat k < 0 := Int.not_lt.mpr (Int.natCast_nonneg k)
    rw [if_neg positive]
    exact Nat.toList_repr
  | negSucc k =>
    rw [if_pos (Int.negSucc_lt_zero k)]
    exact (String.toList_append ..).trans (congrArg ('-' :: ·) Nat.toList_repr)

theorem readInt_toString {n : Int} (short : Short n) :
    readInt (toString n).toList = .ok n := by
  have digits : ∀ c ∈ Nat.toDigits 10 n.natAbs, c.isDigit = true := fun c member =>
    Nat.isDigit_of_mem_toDigits (by decide) (by decide) member
  obtain ⟨plain, negative⟩ := readInt_digits digits Nat.toDigits_ne_nil short
  rw [Nat.ofDigitChars_toDigits (by decide) (by decide)] at plain negative
  rw [toList_toString]
  split
  · rw [negative]
    congr 1
    omega
  · rw [plain]
    congr 1
    omega

end SemanticMarkup.Text
