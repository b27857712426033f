import SemanticMarkup.Node.Basic

namespace SemanticMarkup

-- What may be handed in as a node. Where the children of an element belong, a barren one has anything at
-- all that is no list, not just what can be walked through.
inductive Specimen where
  | element (head : ElementHead) (children : List Specimen)
  | barren (head : ElementHead)
  | text (leaf : TextLeaf)
  | alien (kind : Value)

namespace Specimen

instance : Inhabited Specimen := ⟨.alien .null⟩

def head? : Specimen → Option ElementHead
  | .element head _ | .barren head => some head
  | _ => none

def children : Specimen → List Specimen
  | .element _ children => children
  | _ => []

mutual

def size : Specimen → Nat
  | .element _ children => sizeAll children + 1
  | .barren _ | .text _ | .alien _ => 1

def sizeAll : List Specimen → Nat
  | [] => 0
  | child :: rest => child.size + sizeAll rest

end

theorem sizeAll_eq_foldr (list : List Specimen) : sizeAll list = (list.map size).foldr (· + ·) 0 := by
  induction list with
  | nil => rfl
  | cons child rest ih => simp [sizeAll, ih]

theorem sizeAll_children_lt (s : Specimen) : sizeAll s.children < s.size := by
  cases s <;> simp [children, size, sizeAll]

end Specimen

namespace Node

mutual

def specimen : Node → Specimen
  | .element head children => .element head (specimens children)
  | .barren head _ => .barren head
  | .text leaf => .text leaf
  | .alien kind => .alien kind

def specimens : List Node → List Specimen
  | [] => []
  | child :: rest => child.specimen :: specimens rest

end

theorem specimens_eq_map (nodes : List Node) : specimens nodes = nodes.map specimen := by
  induction nodes with
  | nil => rfl
  | cons child rest ih => rw [specimens, ih, List.map_cons]

@[simp] theorem children_specimen (n : Node) : n.specimen.children = n.children.map specimen := by
  cases n with
  | element head children => exact specimens_eq_map children
  | _ => rfl

end Node
end SemanticMarkup
