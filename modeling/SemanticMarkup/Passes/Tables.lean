import SemanticMarkup.Context
import SemanticMarkup.Tag

namespace SemanticMarkup.Passes
variable {κ σ : Type}

def isTableSection (n : Node) : Bool :=
  n.isElement && match n.sourceTag with
    | .text tag => Tag.isTableSection tag
    | _ => false

-- A table section with one child gives way to that child.
def unwrapped (n : Node) : Node :=
  if isTableSection n then
    match n.children with
    | [only] => only
    | _ => n
  else n

def flattenTable (n : Node) : Node := n.withChildren (n.children.map unwrapped)

def flattenTables : Action κ σ Unit :=
  Action.editNodes fun n => if n.hasSourceTag Tag.table then flattenTable n else n

end SemanticMarkup.Passes
