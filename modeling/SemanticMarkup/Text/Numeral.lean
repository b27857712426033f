import SemanticMarkup.Text.Blank
import SemanticMarkup.Text.DigitTable
import SemanticMarkup.Text.Quoted

namespace SemanticMarkup.Text

def digitValue? (c : Char) : Option Nat :=
  if c.toNat < 0x80 then (if c.isDigit then some (c.toNat - 48) else none)
  else (DigitTable.digits.find? (·.holds c.toNat)).map fun span => (c.toNat - span.first) % 10

def plainDigit (c : Char) : Char :=
  match digitValue? c with
  | some d => Char.ofNat (d + 48)
  | none => c

-- The blanks that may stand around a number: all but the four separators before the space.
def isOuterBlank (c : Char) : Bool := isBlank c && !(28 ≤ c.toNat && c.toNat ≤ 31)

-- Numerals of more digits are neither read nor written, whatever the digits are.
def mostDigits : Nat := 4300

def Short (n : Int) : Prop := (Nat.toDigits 10 n.natAbs).length ≤ mostDigits

instance : DecidablePred Short := fun n =>
  inferInstanceAs (Decidable ((Nat.toDigits 10 n.natAbs).length ≤ mostDigits))

theorem short_zero : Short 0 := by decide
theorem short_one : Short 1 := by decide

inductive NumeralError where
  | malformed
  | tooLong (digits : Nat)
  deriving DecidableEq, Repr

namespace NumeralError

-- Only the beginning of a malformed text is quoted.
def message (e : NumeralError) (text : String) : String :=
  match e with
  | .malformed =>
    "invalid literal for int() with base 10: " ++ .ofList ((quoted text.toList).take 200)
  | .tooLong digits =>
    "Exceeds the limit (" ++ toString mostDigits ++ " digits) for integer string conversion: value has "
      ++ toString digits ++ " digits; use sys.set_int_max_str_digits() to increase the limit"

end NumeralError

-- The digits that a text begins with, and the text behind them. One underscore may stand between
-- two digits; where one stands elsewhere there is no numeral.
def leadingDigits? (afterDigit : Bool) : List Char → Option (List Nat × List Char)
  | [] => if afterDigit then some ([], []) else none
  | c :: rest =>
    match digitValue? c with
    | some d => (leadingDigits? true rest).map fun found => (d :: found.1, found.2)
    | none =>
      if !afterDigit then none
      else if c = '_' then leadingDigits? false rest
      else some ([], c :: rest)

def numberOf (digits : List Nat) : Nat := digits.foldl (fun total d => total * 10 + d) 0

def signed (negative : Bool) (n : Nat) : Int := if negative then -(n : Int) else n

def readSign : List Char → Bool × List Char
  | '+' :: rest => (false, rest)
  | '-' :: rest => (true, rest)
  | cs => (false, cs)

-- A numeral that is too long is refused before what stands behind it is looked at.
def readInt (cs : List Char) : Except NumeralError Int :=
  let (negative, cs) := readSign (cs.dropWhile isOuterBlank)
  match leadingDigits? false cs with
  | none => .error .malformed
  | some (digits, rest) =>
    if mostDigits < digits.length then .error (.tooLong digits.length)
    else if rest.all isOuterBlank then .ok (signed negative (numberOf digits))
    else .error .malformed

theorem digit_bounds {c : Char} (digit : c.isDigit = true) : 48 ≤ c.toNat ∧ c.toNat ≤ 57 := by
  simp only [Char.isDigit, Bool.and_eq_true, decide_eq_true_eq, ge_iff_le] at digit
  exact ⟨UInt32.le_iff_toNat_le.mp digit.1, UInt32.le_iff_toNat_le.mp digit.2⟩

theorem digitValue_lt {c : Char} {d : Nat} (digit : digitValue? c = some d) : d < 10 := by
  unfold digitValue? at digit
  split at digit
  · split at digit
    · rename_i ascii
      obtain ⟨_, most⟩ := digit_bounds ascii
      cases digit
      omega
    · cases digit
  · obtain ⟨span, _, rfl⟩ := Option.map_eq_some_iff.mp digit
    exact Nat.mod_lt _ (by decide)

theorem leadingDigits_lt {cs rest : List Char} {afterDigit : Bool} {digits : List Nat}
    (leading : leadingDigits? afterDigit cs = some (digits, rest)) : ∀ d ∈ digits, d < 10 := by
  induction cs generalizing afterDigit digits with
  | nil =>
    rw [leadingDigits?] at leading
    split at leading
    · cases leading
      exact nofun
    · cases leading
  | cons c more ih =>
    rw [leadingDigits?] at leading
    split at leading
    · rename_i first digit
      obtain ⟨⟨others, behind⟩, later, same⟩ := Option.map_eq_some_iff.mp leading
      cases same
      exact List.forall_mem_cons.mpr ⟨digitValue_lt digit, ih later⟩
    · split at leading
      · cases leading
      · split at leading
        · exact ih leading
        · cases leading
          exact nofun

theorem numberOf_lt {digits : List Nat} (small : ∀ d ∈ digits, d < 10) :
    numberOf digits < Nat.pow 10 digits.length := by
  have each : ∀ n,
      digits.foldl (fun total d => total * 10 + d) n < (n + 1) * Nat.pow 10 digits.length := by
    induction digits with
    | nil => exact fun n => Nat.lt_of_lt_of_eq (Nat.lt_succ_self n) (Nat.mul_one _).symm
    | cons d rest ih =>
      intro n
      obtain ⟨first, others⟩ := List.forall_mem_cons.mp small
      calc (d :: rest).foldl (fun total d => total * 10 + d) n
        _ < (n * 10 + d + 1) * Nat.pow 10 rest.length := ih others (n * 10 + d)
        _ ≤ (n + 1) * 10 * Nat.pow 10 rest.length := Nat.mul_le_mul_right _ (by omega)
        _ = (n + 1) * (Nat.pow 10 rest.length * 10) := by ac_rfl
  exact Nat.lt_of_lt_of_eq (each 0) (Nat.one_mul _)

theorem length_toDigits_le {n k : Nat} (pos : 0 < k) (small : n < Nat.pow 10 k) :
    (Nat.toDigits 10 n).length ≤ k :=
  (Nat.length_toDigits_le_iff (by decide) pos).mpr small

theorem short_of_readInt {cs : List Char} {n : Int} (read : readInt cs = .ok n) : Short n := by
  unfold readInt at read
  generalize readSign (cs.dropWhile isOuterBlank) = signs at read
  obtain ⟨negative, unsigned⟩ := signs
  dsimp only at read
  split at read
  · cases read
  · rename_i digits rest leading
    split at read
    · cases read
    · rename_i few
      split at read
      · cases read
        have same : (signed negative (numberOf digits)).natAbs = numberOf digits := by
          cases negative with
          | false => rfl
          | true => exact Int.natAbs_neg _
        have more : ∀ k, digits.length ≤ k → Nat.pow 10 digits.length ≤ Nat.pow 10 k :=
          fun _ => Nat.pow_le_pow_right (by decide)
        refine length_toDigits_le (by decide) ?_
        calc (signed negative (numberOf digits)).natAbs
          _ = numberOf digits := same
          _ < Nat.pow 10 digits.length := numberOf_lt (leadingDigits_lt leading)
          _ ≤ Nat.pow 10 mostDigits := more _ (Nat.not_lt.mp few)
      · cases read

end SemanticMarkup.Text
