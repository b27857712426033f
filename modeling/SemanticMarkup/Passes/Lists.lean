import SemanticMarkup.Context
import SemanticMarkup.Tag

namespace SemanticMarkup.Passes
variable {κ σ : Type}

def markerLeaf (marker : String) : TextLeaf :=
  ⟨.text marker, .null, .null, .null, .record [("source", .text "li-marker")]⟩

def marked (marker : String) (item : Node) : Node :=
  match item.children with
  | .text leaf :: rest =>
    item.withChildren (.text { leaf with content := leaf.content.mapText (marker ++ ·) } :: rest)
  | children => item.withChildren (.text (markerLeaf marker) :: children)

def isItem (n : Node) : Bool := n.hasSourceTag Tag.listItem

def marker (ordered : Bool) (number : Nat) : String :=
  if ordered then toString number ++ ". " else "• "

-- Marks the items of a list, the first of them with the number after the given one. Other
-- children stay as they are and are not counted.
def markItems (ordered : Bool) : Nat → List Node → List Node
  | _, [] => []
  | number, n :: rest =>
    if isItem n then marked (marker ordered (number + 1)) n :: markItems ordered (number + 1) rest
    else n :: markItems ordered number rest

def markList (n : Node) : Node :=
  n.withChildren (markItems (n.hasSourceTag Tag.orderedList) 0 n.children)

def isList (n : Node) : Bool :=
  n.isElement && match n.sourceTag with
    | .text tag => Tag.isList tag
    | _ => false

def markLists : Action κ σ Unit := Action.editNodes fun n => if isList n then markList n else n

end SemanticMarkup.Passes
