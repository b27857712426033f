import SemanticMarkup.Text.Numeral

namespace SemanticMarkup.Markup.Reference

-- The names of characters that references know. Old names count in attribute values without the
-- closing semicolon too.
structure Named where
  name : List Char
  char : Char
  old : Bool

def named : List Named := [
  ⟨"amp".toList, '&', true⟩,
  ⟨"lt".toList, '<', true⟩,
  ⟨"gt".toList, '>', true⟩,
  ⟨"quot".toList, '"', true⟩,
  ⟨"apos".toList, '\'', false⟩,
  ⟨"nbsp".toList, Char.ofNat 0xA0, true⟩,
  ⟨"copy".toList, Char.ofNat 0xA9, true⟩,
  ⟨"eacute".toList, Char.ofNat 0xE9, true⟩,
  ⟨"Eacute".toList, Char.ofNat 0xC9, true⟩,
  ⟨"hellip".toList, Char.ofNat 0x2026, false⟩,
  ⟨"mdash".toList, Char.ofNat 0x2014, false⟩,
  ⟨"ndash".toList, Char.ofNat 0x2013, false⟩,
  ⟨"euro".toList, Char.ofNat 0x20AC, false⟩,
  ⟨"hearts".toList, Char.ofNat 0x2665, false⟩,
  ⟨"rarr".toList, Char.ofNat 0x2192, false⟩]

def replacement : Char := Char.ofNat 0xFFFD

-- What 0x80 to 0x9F stood for in the old western code page, in order; zero where nothing did.
def westernPage : List Nat :=
  [0x20AC, 0, 0x201A, 0x0192, 0x201E, 0x2026, 0x2020, 0x2021, 0x02C6, 0x2030, 0x0160, 0x2039,
   0x0152, 0, 0x017D, 0, 0, 0x2018, 0x2019, 0x201C, 0x201D, 0x2022, 0x2013, 0x2014, 0x02DC,
   0x2122, 0x0161, 0x203A, 0x0153, 0, 0x017E, 0x0178]

-- The character of a number. Zero and numbers of no character give the replacement character,
-- and the control range after ASCII is read by the western code page.
def numbered (n : Nat) : Char :=
  if n = 0 ∨ 0x10FFFF < n ∨ (0xD800 ≤ n ∧ n ≤ 0xDFFF) then replacement
  else if 0x80 ≤ n ∧ n ≤ 0x9F then
    match westernPage[n - 0x80]? with
    | some code => Char.ofNat (if code = 0 then n else code)
    | none => Char.ofNat n
  else Char.ofNat n

-- Numbers that give nothing in attribute values: controls that no text has, and code points set
-- apart as no characters.
def vanishes (n : Nat) : Bool :=
  (1 ≤ n && n ≤ 8) || n == 0xB || (0xE ≤ n && n ≤ 0x1F) || n == 0x7F ||
    (0xFDD0 ≤ n && n ≤ 0xFDEF) || (n ≤ 0x10FFFF && 0xFFFE ≤ n % 0x10000)

def isHex (c : Char) : Bool := c.isDigit || ('a' ≤ c && c ≤ 'f') || ('A' ≤ c && c ≤ 'F')

def hexValue (c : Char) : Nat :=
  if c.isDigit then c.toNat - 48
  else if 'a' ≤ c ∧ c ≤ 'f' then c.toNat - 87 else c.toNat - 55

def decimalNumber (digits : List Char) : Nat :=
  digits.foldl (fun total c => total * 10 + (c.toNat - 48)) 0

def hexNumber (digits : List Char) : Nat := digits.foldl (fun total c => total * 16 + hexValue c) 0

def number? : List Char → Option (Nat × List Char)
  | [] => none
  | c :: rest =>
    if c = 'x' ∨ c = 'X' then
      if (rest.takeWhile isHex).isEmpty then none
      else some (hexNumber (rest.takeWhile isHex), rest.dropWhile isHex)
    else if c.isDigit then
      some (decimalNumber ((c :: rest).takeWhile Char.isDigit), (c :: rest).dropWhile Char.isDigit)
    else none

-- How many digits the decimal number after `&#` has, when they are too many to be read.
-- Hexadecimal numbers may have any number of digits.
def excess? (cs : List Char) : Option Nat :=
  let digits := (cs.takeWhile Char.isDigit).length
  if Text.mostDigits < digits then some digits else none

theorem number?_suffix {cs rest : List Char} {n : Nat} (found : number? cs = some (n, rest)) :
    rest <:+ cs := by
  unfold number? at found
  split at found
  · cases found
  · split at found
    · split at found
      · cases found
      · cases found
        exact (List.dropWhile_suffix _).trans (List.suffix_cons _ _)
    · split at found
      · cases found
        exact List.dropWhile_suffix _
      · cases found

def skipSemicolon : List Char → List Char
  | ';' :: rest => rest
  | cs => cs

theorem skipSemicolon_suffix (cs : List Char) : skipSemicolon cs <:+ cs := by
  unfold skipSemicolon
  split
  · exact List.suffix_cons _ _
  · exact List.suffix_refl _

def isNameChar (c : Char) : Bool := c.isAlphanum || c == '-' || c == '.'

def byName? (name : List Char) : Option Char := (named.find? fun n => n.name == name).map Named.char

def oldStart? (cs : List Char) : Option Named :=
  named.foldl (fun best n =>
    if n.old && n.name.isPrefixOf cs && n.name.length < cs.length &&
        best.all (fun b => b.name.length < n.name.length) then some n
    else best) none

def inAttributeName (c : Char) : Bool :=
  !(c == '\t' || c == '\n' || c == '\x0c' || c == ' ' || c == '<' || c == '&' || c == '#' || c == ';')

-- What a name in an attribute value stands for. Unknown names stay as they are written.
def attributeName (name : List Char) (closed : Bool) : List Char :=
  let written := if closed then name ++ [';'] else name
  match named.find? (fun n => n.name == name && (closed || n.old)) with
  | some n => [n.char]
  | none =>
    match oldStart? written with
    | some n => n.char :: written.drop n.name.length
    | none => '&' :: written

def decode (cs : List Char) : List Char :=
  match cs with
  | [] => []
  | '&' :: '#' :: rest =>
    match _found : number? rest with
    | some (n, after) =>
      (if vanishes n then [] else [numbered n]) ++ decode (skipSemicolon after)
    | none => '&' :: decode ('#' :: rest)
  | '&' :: rest =>
    let name := (rest.takeWhile inAttributeName).take 32
    if name.isEmpty then '&' :: decode rest
    else
      match rest.drop name.length with
      | ';' :: _ => attributeName name true ++ decode (rest.drop (name.length + 1))
      | _ => attributeName name false ++ decode (rest.drop name.length)
  | c :: rest => c :: decode rest
termination_by cs.length
decreasing_by
  · have short := (skipSemicolon_suffix after).length_le
    have shorter := (number?_suffix _found).length_le
    simp only [List.length_cons]
    omega
  · simp
  · simp
  · simp only [List.length_drop, List.length_cons]
    omega
  · simp only [List.length_drop, List.length_cons]
    omega
  · simp

def excessIn? : List Char → Option Nat
  | [] => none
  | '&' :: '#' :: rest => (excess? rest).orElse fun _ => excessIn? rest
  | _ :: rest => excessIn? rest

end SemanticMarkup.Markup.Reference
