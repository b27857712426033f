import SemanticMarkup.Decimal.Binary64

namespace SemanticMarkup.Decimal

structure Scientific where
  digits : Nat
  exponent : Int
  deriving DecidableEq, Repr

namespace Shortest
open Binary64

-- Fractions are compared by cross products. The numbers that read back as `m * 2 ^ e` lie
-- between the middles towards its two neighbours; the middles belong to it when `m` is even.
-- Everything is measured in quarters of 2 ^ e, for the lower neighbour may be half as far.
def readsBack (m : Nat) (e : Int) (candidate : Scientific) : Bool :=
  let low := if m = twoTo 52 ∧ leastExponent < e then 4 * m - 1 else 4 * m - 2
  let high := 4 * m + 2
  let two := (e - 2).natAbs
  let ten := candidate.exponent.natAbs
  let value := candidate.digits * (if 0 ≤ candidate.exponent then tenTo ten else 1) *
    (if e - 2 < 0 then twoTo two else 1)
  let unit := (if candidate.exponent < 0 then tenTo ten else 1) * (if 0 ≤ e - 2 then twoTo two else 1)
  if m % 2 = 0 then low * unit ≤ value && value ≤ high * unit
  else low * unit < value && value < high * unit

def neighbours (n d : Nat) (t : Int) : List Scientific :=
  let n := if t < 0 then n * tenTo t.natAbs else n
  let d := if 0 ≤ t then d * tenTo t.natAbs else d
  let below := n / d
  let near := roundedQuotient n d
  [⟨near, t⟩, ⟨if near = below then below + 1 else below, t⟩]

-- One more than the exponent of the leading decimal digit of `n / d`, or a little above.
def leadingExponent (n d : Nat) : Int :=
  ((Nat.toDigits 10 n).length : Int) - (Nat.toDigits 10 d).length + 1

-- The first of the coming grids, each ten times finer, that holds a number reading back.
def search (m : Nat) (e : Int) (n d : Nat) (t : Int) : Nat → Scientific
  | 0 => ⟨n, 0⟩
  | more + 1 =>
    match (neighbours n d t).find? (fun c => readsBack m e c) with
    | some found => found
    | none => search m e n d (t - 1) more

def dropZerosWithin : Nat → Scientific → Scientific
  | 0, s => s
  | bound + 1, s =>
    if s.digits % 10 = 0 ∧ s.digits ≠ 0 then dropZerosWithin bound ⟨s.digits / 10, s.exponent + 1⟩ else s

-- The fewest decimal digits that read back as `m * 2 ^ e`, and of those the nearest.
def ofBinary (m : Nat) (e : Int) : Scientific :=
  let (n, d) := fraction m e
  let found := search m e n d (leadingExponent n d) 40
  dropZerosWithin 20 found

end Shortest

namespace Binary64

-- Digits with a point: always one digit after it, `.0` for whole numbers.
def positional (digits : List Char) (exponent : Int) : List Char :=
  let count : Int := digits.length + exponent
  if 0 ≤ exponent then digits ++ List.replicate exponent.toNat '0' ++ ['.', '0']
  else if 0 < count then digits.take count.toNat ++ '.' :: digits.drop count.toNat
  else '0' :: '.' :: List.replicate (-count).toNat '0' ++ digits

def withExponent (digits : List Char) (leading : Int) : List Char :=
  let mantissa := match digits with
    | [] => []
    | [d] => [d]
    | d :: rest => d :: '.' :: rest
  mantissa ++ 'e' :: (if leading < 0 then '-' else '+') :: paddedDigits 2 leading.natAbs

-- The shortest decimal text: positional from 10 ^ -4 up to below 10 ^ 16.
def text : Binary64 → String
  | .infinite s => if s then "-inf" else "inf"
  | .nan => "nan"
  | .finite s m e =>
    let sign := if s then "-" else ""
    if m = 0 then sign ++ "0.0"
    else
      let short := Shortest.ofBinary m e
      let digits := Nat.toDigits 10 short.digits
      let leading := short.exponent + digits.length - 1
      let body :=
        if -4 ≤ leading ∧ leading < 16 then positional digits short.exponent
        else withExponent digits leading
      sign ++ String.ofList body

end Binary64
end SemanticMarkup.Decimal
