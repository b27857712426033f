import SemanticMarkup.Value

namespace SemanticMarkup.Fuzz

-- A source of random numbers. `draw n` gives a number below `n`, and a seed, which may be any
-- value, sets the source anew.
class RandomSource (S : Type) where
  draw : (n : Nat) → 0 < n → S → Fin n × S
  seed : Value → S → S

abbrev Gen (S α : Type) := StateM S α

namespace Gen
variable {S α : Type} [RandomSource S]

def below (n : Nat) (pos : 0 < n) : Gen S (Fin n) := fun s => RandomSource.draw n pos s

-- A whole number, the two ends included. With the ends the wrong way round it is one above
-- `high + 1` and not above `low`.
def between (low high : Int) : Gen S Int := do
  if high < low then
    let width := (low - high - 2).toNat + 1
    let drawn ← below width (Nat.succ_pos _)
    return if drawn.val = 0 then low else low + drawn.val - width
  else
    let above ← below ((high - low).toNat + 1) (Nat.succ_pos _)
    return low + above.val

def chance (often : Nat) : Gen S Bool := do
  let drawn ← below 1000 (by decide)
  return decide (drawn.val < often)

def choose (options : List α) (some : options ≠ []) : Gen S α := do
  let place ← below options.length (List.length_pos_iff.mpr some)
  return options[place]

def oneOf (options : List (Gen S α)) (some : options ≠ []) : Gen S α := do
  let chosen ← choose options some
  chosen

def times : Nat → Gen S α → Gen S (List α)
  | 0, _ => return []
  | n + 1, make => do
    let x ← make
    let rest ← times n make
    return x :: rest

def several (low high : Int) (make : Gen S α) : Gen S (List α) := do
  let count ← between low high
  times count.toNat make

def sample : Nat → List α → Gen S (List α)
  | 0, _ => return []
  | _, [] => return []
  | n + 1, x :: xs => do
    let place ← below (x :: xs).length (Nat.succ_pos _)
    let rest ← sample n ((x :: xs).eraseIdx place)
    return (x :: xs)[place] :: rest

-- Brings a list into any order: the last element changes places with any one, then the one
-- before it with any of those up to it, and so on.
def shuffled : List α → Gen S (List α)
  | [] => return []
  | [x] => return [x]
  | x :: y :: xs => do
    let place ← below (x :: y :: xs).length (Nat.succ_pos _)
    let front ← shuffled (((x :: y :: xs).set place ((y :: xs).getLast (by simp))).dropLast)
    return front ++ [(x :: y :: xs)[place]]
termination_by xs => xs.length
decreasing_by simp

end Gen

-- A linear congruential sequence. The low sixteen bits of a state are not used.
structure Congruential where
  state : Nat
  deriving DecidableEq, Repr

namespace Congruential

def modulus : Nat := 2147483648

def next (c : Congruential) : Congruential := ⟨(c.state * 1103515245 + 12345) % modulus⟩

def draw (n : Nat) (pos : 0 < n) (c : Congruential) : Fin n × Congruential :=
  (⟨c.next.state / 65536 % n, Nat.mod_lt _ pos⟩, c.next)

-- The seed alone settles the sequence. What is no whole number counts as zero.
def ofSeed (seed : Value) : Congruential := ⟨((seed.whole?.getD 0) % (modulus : Int)).toNat⟩

instance : RandomSource Congruential where
  draw := draw
  seed seed _ := ofSeed seed

end Congruential

-- Numbers written down beforehand come first, then those of a sequence. Draws are counted, and
-- seeds are noted without any effect on what is drawn.
structure Tape where
  prepared : List Nat
  sequence : Congruential
  drawn : Nat
  seeds : List Value

namespace Tape

def start (prepared : List Nat) (state : Nat) : Tape := ⟨prepared, ⟨state⟩, 0, []⟩

def draw (n : Nat) (pos : 0 < n) (t : Tape) : Fin n × Tape :=
  match t.prepared with
  | number :: rest =>
    (⟨number % n, Nat.mod_lt _ pos⟩, { t with prepared := rest, drawn := t.drawn + 1 })
  | [] =>
    match t.sequence.draw n pos with
    | (number, sequence) => (number, { t with sequence := sequence, drawn := t.drawn + 1 })

def noteSeed (seed : Value) (t : Tape) : Tape := { t with seeds := t.seeds ++ [seed] }

instance : RandomSource Tape where
  draw := draw
  seed := noteSeed

end Tape
end SemanticMarkup.Fuzz
