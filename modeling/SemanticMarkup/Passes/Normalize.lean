import SemanticMarkup.Context
import SemanticMarkup.Text.Blank

namespace SemanticMarkup.Passes
variable {κ σ : Type}

def flagBlank (h : AstHead) : AstHead :=
  if h.isText then { h with blank := Text.isAllBlank h.dataText } else h

-- Flags all texts of the markup, so that the structure pass can skip the blank ones.
def normalize : Action κ σ Unit := Action.editMarkup flagBlank

end SemanticMarkup.Passes
