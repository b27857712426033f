import SemanticMarkup.Decimal.Binary64

namespace SemanticMarkup.Decimal.Binary64

-- Every operation gives the double nearest to the exact result.

def ofRat (r : Rat) : Binary64 := ofRatio (decide (r.num < 0)) r.num.natAbs r.den

-- Whole numbers of this size or more are beyond the greatest double.
def overflowSize : Nat := twoTo 1024 - twoTo 970

def ofInt? (n : Int) : Option Binary64 :=
  if overflowSize ≤ n.natAbs then none else some (ofRatio (decide (n < 0)) n.natAbs 1)

def exact (negative : Bool) (m : Nat) (e : Int) : Rat :=
  let (n, d) := fraction m e
  mkRat (if negative then -(n : Int) else n) d

def negated : Binary64 → Binary64
  | .finite s m e => .finite (!s) m e
  | .infinite s => .infinite (!s)
  | .nan => .nan

-- A sum of zero is negative only if both parts are.
def plus : Binary64 → Binary64 → Binary64
  | .finite s m e, .finite t n f =>
    let sum := exact s m e + exact t n f
    if sum = 0 then zero (s && t) else ofRat sum
  | .finite _ _ _, y => y
  | x, .finite _ _ _ => x
  | .infinite s, .infinite t => if s = t then .infinite s else .nan
  | _, _ => .nan

def minus (x y : Binary64) : Binary64 := x.plus y.negated

def dividedBy (x y : Binary64) : Binary64 :=
  let negative := x.isNegative != y.isNegative
  match x, y with
  | .finite s m e, .finite t n f =>
    if m = 0 then zero negative else ofRat (exact s m e / exact t n f)
  | .finite _ _ _, .infinite _ => zero negative
  | .infinite _, .finite _ _ _ => .infinite negative
  | _, _ => .nan

def less : Binary64 → Binary64 → Bool
  | .finite s m e, .finite t n f => decide (exact s m e < exact t n f)
  | .finite _ _ _, .infinite t => !t
  | .infinite s, .finite _ _ _ => s
  | .infinite s, .infinite t => s && !t
  | _, _ => false

end SemanticMarkup.Decimal.Binary64
