import SemanticMarkup.Decimal.Rounding

namespace SemanticMarkup.Decimal

-- A number of the double format: a sign and `significand * 2 ^ exponent`, an infinity, or what
-- is no number. The functions here keep the significand below 2 ^ 53 and, unless the exponent is
-- the least one, at 2 ^ 52 or more, so that equal numbers of one sign are equal values.
inductive Binary64 where
  | finite (negative : Bool) (significand : Nat) (exponent : Int)
  | infinite (negative : Bool)
  | nan
  deriving DecidableEq, Repr

namespace Binary64

def leastExponent : Int := -1074
def greatestExponent : Int := 971

def zero (negative : Bool) : Binary64 := .finite negative 0 leastExponent

-- `n / d` brought to a multiple of 2 ^ e.
def scaledTo (n d : Nat) (e : Int) : Nat :=
  if 0 ≤ e then roundedQuotient n (d * twoTo e.toNat) else roundedQuotient (n * twoTo (-e).toNat) d

-- The exponent under which `n / d` has 53 binary digits, or the least exponent.
def exponentFor (n d : Nat) : Int :=
  let guess : Int := (Nat.log2 n : Int) - Nat.log2 d - 52
  let fits : Bool :=
    if 0 ≤ guess then d * twoTo guess.toNat * twoTo 52 ≤ n else d * twoTo 52 ≤ n * twoTo (-guess).toNat
  max leastExponent (if fits then guess else guess - 1)

-- The double nearest to `n / d`, ties to the even significand.
def ofRatio (negative : Bool) (n d : Nat) : Binary64 :=
  if n = 0 then zero negative
  else
    let e := exponentFor n d
    let m := scaledTo n d e
    let (m, e) := if m = twoTo 53 then (twoTo 52, e + 1) else (m, e)
    if greatestExponent < e then .infinite negative else .finite negative m e

-- The double nearest to `n * 10 ^ e`. From 10 ^ 310 on there are only infinities, and nothing but
-- zero is left below 10 ^ -330.
def ofDecimal (negative : Bool) (n : Nat) (e : Int) : Binary64 :=
  let digits : Int := (Nat.toDigits 10 n).length
  if n = 0 ∨ digits + e < -330 then zero negative
  else if 310 < digits + e then .infinite negative
  else if 0 ≤ e then ofRatio negative (n * tenTo e.toNat) 1
  else ofRatio negative n (tenTo (-e).toNat)

def isZero : Binary64 → Bool
  | .finite _ m _ => m == 0
  | _ => false

def isNegative : Binary64 → Bool
  | .finite s _ _ => s
  | .infinite s => s
  | .nan => false

def fraction (m : Nat) (e : Int) : Nat × Nat :=
  if 0 ≤ e then (m * twoTo e.toNat, 1) else (m, twoTo (-e).toNat)

def truncate? : Binary64 → Option Int
  | .finite s m e =>
    let (n, d) := fraction m e
    some (if s then -((n / d : Nat) : Int) else ((n / d : Nat) : Int))
  | _ => none

def toInt? (x : Binary64) : Option Int :=
  match x with
  | .finite _ m e =>
    let (n, d) := fraction m e
    if n % d = 0 then x.truncate? else none
  | _ => none

-- The same number; the two zeros are one, and what is no number is not even the same as itself.
def same (x y : Binary64) : Bool := (x == y && x != .nan) || (x.isZero && y.isZero)

end Binary64
end SemanticMarkup.Decimal
