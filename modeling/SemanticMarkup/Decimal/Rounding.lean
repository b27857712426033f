namespace SemanticMarkup.Decimal

-- The whole number nearest to `n / d`; of two equally near ones, the even one.
def roundedQuotient (n d : Nat) : Nat :=
  let q := n / d
  let r := n % d
  if 2 * r < d then q
  else if d < 2 * r then q + 1
  else if q % 2 = 0 then q else q + 1

theorem roundedQuotient_near {n d : Nat} (pos : 0 < d) :
    2 * n ≤ 2 * (d * roundedQuotient n d) + d ∧ 2 * (d * roundedQuotient n d) ≤ 2 * n + d := by
  have split := Nat.div_add_mod n d
  have small := Nat.mod_lt n pos
  have up : d * (n / d + 1) = d * (n / d) + d := Nat.mul_succ d (n / d)
  simp only [roundedQuotient]
  split
  · omega
  · split
    · rw [up]; omega
    · split
      · omega
      · rw [up]; omega

theorem roundedQuotient_exact {q d : Nat} (pos : 0 < d) : roundedQuotient (d * q) d = q := by
  simp [roundedQuotient, Nat.mul_div_cancel_left q pos, Nat.mul_mod_right, pos]

def paddedDigits (width n : Nat) : List Char :=
  let digits := Nat.toDigits 10 n
  List.replicate (width - digits.length) '0' ++ digits

def tenTo (n : Nat) : Nat := Nat.pow 10 n
def twoTo (n : Nat) : Nat := Nat.pow 2 n

def fixedText (places : Nat) (negative : Bool) (n d : Nat) : String :=
  let scaled := roundedQuotient (n * tenTo places) d
  let whole := toString (scaled / tenTo places)
  let part := String.ofList (paddedDigits places (scaled % tenTo places))
  (if negative then "-" else "") ++ whole ++ (if places = 0 then "" else "." ++ part)

end SemanticMarkup.Decimal
