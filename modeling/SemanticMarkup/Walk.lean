import SemanticMarkup.Ast.Basic
import SemanticMarkup.Node.Basic

namespace SemanticMarkup

-- Things that branch: a size that bounds the sizes of the children together, and a way to put
-- other children in, which changes nothing when they are the own ones.
class Branching (α : Type) where
  children : α → List α
  withChildren : α → List α → α
  size : α → Nat
  smaller : ∀ a, ((children a).map size).foldr (· + ·) 0 < size a
  same : ∀ a, withChildren a (children a) = a

instance : Branching Ast where
  children := Ast.children
  withChildren := Ast.withChildren
  size := Ast.size
  smaller a := by
    rw [← Ast.sizeAll_eq_foldr]
    exact Ast.sizeAll_children_lt a
  same := Ast.withChildren_children

instance : Branching Node where
  children := Node.children
  withChildren := Node.withChildren
  size := Node.size
  smaller n := by
    rw [← Node.sizeAll_eq_foldr]
    exact Node.sizeAll_children_lt n
  same := Node.withChildren_children

-- No walk follows a tree below this many levels under its top.
def maxDepth : Nat := 512

def depthLimit : Value := .whole maxDepth

-- What a walk has seen: the things visited in order, and whether it met one too deep to visit,
-- where it stopped.
structure Trail (α : Type) where
  visited : List α
  tooDeep : Bool

namespace Walk
variable {α : Type} [Branching α]

def atDepth (depth : Nat) (things : List α) : List (α × Nat) := things.map fun a => (a, depth)

def weight (waiting : List (α × Nat)) : Nat :=
  (waiting.map fun w => Branching.size w.1).foldr (· + ·) 0

theorem weight_atDepth (depth : Nat) (things : List α) :
    weight (atDepth depth things) = (things.map Branching.size).foldr (· + ·) 0 := by
  simp [weight, atDepth, Function.comp_def]

theorem weight_append (first second : List (α × Nat)) :
    weight (first ++ second) = weight first + weight second := by
  rw [weight, List.map_append]
  exact List.sum_append

theorem weight_next (a : α) (depth : Nat) (waiting : List (α × Nat)) :
    weight (atDepth (depth + 1) (Branching.children a) ++ waiting) < weight ((a, depth) :: waiting) := by
  have small := Branching.smaller a
  have whole : weight ((a, depth) :: waiting) = Branching.size a + weight waiting := by simp [weight]
  rw [weight_append, weight_atDepth, whole]
  omega

-- Takes the next waiting thing, with its depth, visits it, and lets its children wait before
-- all others.
def run : List (α × Nat) → Trail α
  | [] => ⟨[], false⟩
  | (a, depth) :: waiting =>
    if maxDepth < depth then ⟨[], true⟩
    else
      let rest := run (atDepth (depth + 1) (Branching.children a) ++ waiting)
      ⟨a :: rest.visited, rest.tooDeep⟩
termination_by waiting => weight waiting
decreasing_by exact weight_next a depth waiting

def nodes (a : α) : Trail α := run [(a, 0)]

-- The same walk, taken one thing at a time. Each visit says what it has come to so far and may leave
-- the walk, which then looks at nothing further. The flag tells that the walk did not break off at
-- something too deep.
def loop {σ : Type} (visit : α → σ → ForInStep σ) : List (α × Nat) → σ → σ × Bool
  | [], s => (s, true)
  | (a, depth) :: waiting, s =>
    if maxDepth < depth then (s, false)
    else
      match visit a s with
      | .done s => (s, true)
      | .yield s => loop visit (atDepth (depth + 1) (Branching.children a) ++ waiting) s
termination_by waiting => weight waiting
decreasing_by exact weight_next a depth waiting

def through {σ : Type} (visit : α → σ → ForInStep σ) (a : α) (s : σ) : σ × Bool :=
  loop visit [(a, 0)] s

-- Looks for the first thing with a property: found, not there, or not known because the tree
-- goes too deep before.
inductive Search (α : Type) where
  | found (a : α)
  | absent
  | tooDeep

def untilFound (p : α → Bool) (a : α) (_ : Option α) : ForInStep (Option α) :=
  if p a then .done (some a) else .yield none

def search (p : α → Bool) (a : α) : Search α :=
  match through (untilFound p) a none with
  | (some a, _) => .found a
  | (none, true) => .absent
  | (none, false) => .tooDeep

-- Edits a tree from the top down: each thing is edited, then the children that it has after
-- that. Nothing is edited from the first thing on that lies too deep; what was edited before
-- stays, and the flag tells that all was done.
def editList (edit : α → α × Bool) : List α → List α × Bool
  | [] => ([], true)
  | a :: rest =>
    match edit a with
    | (a, true) =>
      let (rest, done) := editList edit rest
      (a :: rest, done)
    | (a, false) => (a :: rest, false)

def editWithin (edit : α → α) : Nat → α → α × Bool
  | 0, a => (a, false)
  | levels + 1, a =>
    let edited := edit a
    let (children, done) := editList (editWithin edit levels) (Branching.children edited)
    (Branching.withChildren edited children, done)

def editAll (edit : α → α) (a : α) : α × Bool := editWithin edit (maxDepth + 1) a

end Walk
end SemanticMarkup
