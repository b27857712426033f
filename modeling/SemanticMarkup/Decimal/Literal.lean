import SemanticMarkup.Decimal.Binary64
import SemanticMarkup.Text.Numeral

namespace SemanticMarkup.Decimal.Binary64
open Text

-- Underscores go where they stand between two digits; there is no text where one stands elsewhere.
def withoutUnderscores? (afterDigit : Bool) : List Char → Option (List Char)
  | [] => some []
  | ['_'] => none
  | '_' :: c :: rest =>
    if afterDigit && c.isDigit then withoutUnderscores? false (c :: rest) else none
  | c :: rest => (withoutUnderscores? c.isDigit rest).map (c :: ·)

def digitsOf (cs : List Char) : List Char × List Char :=
  (cs.takeWhile Char.isDigit, cs.dropWhile Char.isDigit)

def numberOf (digits : List Char) : Nat :=
  digits.foldl (fun total c => total * 10 + (c.toNat - 48)) 0

def signOf : List Char → Bool × List Char
  | '-' :: rest => (true, rest)
  | '+' :: rest => (false, rest)
  | cs => (false, cs)

def exponentOf? : List Char → Option Int
  | [] => some 0
  | c :: rest =>
    if c = 'e' ∨ c = 'E' then
      let (negative, rest) := signOf rest
      match digitsOf rest with
      | (d :: ds, []) => some (if negative then -(numberOf (d :: ds) : Int) else numberOf (d :: ds))
      | _ => none
    else none

def unsigned? (negative : Bool) (cs : List Char) : Option Binary64 :=
  let (whole, rest) := digitsOf cs
  let (part, rest) := match rest with
    | '.' :: more => digitsOf more
    | _ => ([], rest)
  if whole.isEmpty && part.isEmpty then
    let name := String.ofList (cs.map Char.toLower)
    if name = "inf" ∨ name = "infinity" then some (.infinite negative)
    else if name = "nan" then some .nan
    else none
  else (exponentOf? rest).map fun e => ofDecimal negative (numberOf (whole ++ part)) (e - part.length)

-- Reads a number as people write it: blanks around it, at most one sign, and digits of any script.
def read? (cs : List Char) : Option Binary64 :=
  let inner := ((cs.dropWhile isOuterBlank).reverse.dropWhile isOuterBlank).reverse
  (withoutUnderscores? false (inner.map plainDigit)).bind fun cs =>
    let (negative, cs) := signOf cs
    unsigned? negative cs

end SemanticMarkup.Decimal.Binary64
