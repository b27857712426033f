import SemanticMarkup.Walk

namespace SemanticMarkup

-- Where a node stands: the indices that lead to it from the top.
abbrev Path := List Nat

structure Located where
  path : Path
  node : Node

namespace Located

def children (l : Located) : List Located :=
  l.node.children.zipIdx.map fun (child, i) => ⟨l.path ++ [i], child⟩

theorem map_size_children (l : Located) :
    (l.children.map fun c => c.node.size) = l.node.children.map Node.size := by
  simp only [children, List.map_map]
  rw [show ((fun c : Located => c.node.size) ∘ fun x : Node × Nat => (⟨l.path ++ [x.2], x.1⟩ : Located))
    = Node.size ∘ Prod.fst from rfl, ← List.map_map]
  congr 1
  exact List.zipIdx_map_fst 0 l.node.children

end Located

instance : Branching Located where
  children := Located.children
  withChildren l children := ⟨l.path, l.node.withChildren (children.map Located.node)⟩
  size l := l.node.size
  smaller l := by
    rw [Located.map_size_children, ← Node.sizeAll_eq_foldr]
    exact Node.sizeAll_children_lt l.node
  same l := by
    have nodes : l.children.map Located.node = l.node.children := by
      simp only [Located.children, List.map_map]
      exact List.zipIdx_map_fst 0 l.node.children
    rw [nodes, Node.withChildren_children]

namespace Node

def at? (n : Node) : Path → Option Node
  | [] => some n
  | i :: path => n.children[i]?.bind fun child => child.at? path

def modifyAt (f : Node → Node) : Path → Node → Node
  | [], n => f n
  | i :: path, n => n.withChildren (n.children.modify i (modifyAt f path))

-- What a replacement gives: the new top of the tree, or the tree, changed or not.
inductive Replaced where
  | top (replacement : Node)
  | inside (root : Node)
  | tooDeep

-- Replaces the node at a place. The place stands for the identity of the node: a node that is
-- not in the tree has none. The search goes through the tree in document order up to the parent
-- of the node, and fails when it comes to something too deep before.
def replace (root : Node) (target : Option Path) (replacement : Node) : Replaced :=
  match target with
  | some [] => .top replacement
  | some path =>
    match Walk.search (fun l => l.path == path.dropLast) (⟨[], root⟩ : Located) with
    | .found _ => .inside (modifyAt (fun _ => replacement) path root)
    | .absent => .inside root
    | .tooDeep => .tooDeep
  | none => if (Walk.nodes root).tooDeep then .tooDeep else .inside root

end Node
end SemanticMarkup
