import SemanticMarkup.Fault
import SemanticMarkup.Walk

namespace SemanticMarkup.Walk
variable {α : Type} [Branching α]

def depthFault : Fault := .tooDeep depthLimit "walk" .null none

-- Calls something for everything in a tree, parents first. What was called for before a fault has
-- been called for.
def each {σ : Type} (call : α → σ → σ) (a : α) (s : σ) : σ × Except Fault Unit :=
  match through (fun b s => .yield (call b s)) a s with
  | (s, true) => (s, .ok ())
  | (s, false) => (s, .error depthFault)

def all (a : α) : Except Fault (List α) :=
  let trail := nodes a
  if trail.tooDeep then .error depthFault else .ok trail.visited

-- Everything with a property; the whole tree has to be gone through.
def filtered (p : α → Bool) (a : α) : Except Fault (List α) := (all a).map (List.filter p)

def first? (p : α → Bool) (a : α) : Except Fault (Option α) :=
  match search p a with
  | .found a => .ok (some a)
  | .absent => .ok none
  | .tooDeep => .error depthFault

def reaches (p : α → Bool) (a : α) : Except Fault Bool :=
  match through (fun b _ => if p b then .done true else .yield false) a false with
  | (found, true) => .ok found
  | (_, false) => .error depthFault

def edited (edit : α → α) (a : α) : α × Except Fault Unit :=
  match editAll edit a with
  | (a, true) => (a, .ok ())
  | (a, false) => (a, .error depthFault)

end SemanticMarkup.Walk
