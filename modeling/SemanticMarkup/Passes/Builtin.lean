import SemanticMarkup.Dispatch.Batch
import SemanticMarkup.Passes.Capability
import SemanticMarkup.Passes.Lists
import SemanticMarkup.Passes.Normalize
import SemanticMarkup.Passes.Structure
import SemanticMarkup.Passes.Tables

namespace SemanticMarkup

inductive HandlerName (ε : Type) where
  | builtin (h : Passes.CapabilityHandler)
  | extra (e : ε)

namespace HandlerName
variable {ε σ : Type}

def perform (extras : ε → Handler (HandlerName ε) σ) : HandlerName ε → Handler (HandlerName ε) σ
  | .builtin h => h.perform
  | .extra e => extras e

end HandlerName

namespace Passes
variable {ε σ : Type}

def plain (name : String) (phase : Phase) (order : Int) (apply : Action (HandlerName ε) σ Unit) :
    Plugin (HandlerName ε) σ :=
  ⟨name, phase, order, true, ⟨.text name, apply, none⟩⟩

def batched (name : String) (order : Int) (apply : Action (HandlerName ε) σ Unit)
    (handlers : Action (HandlerName ε) σ (List (Value × Option (HandlerName ε)))) :
    Plugin (HandlerName ε) σ :=
  ⟨name, .capability, order, true, ⟨.text name, apply, some handlers⟩⟩

-- The passes that every transform has unless they are disabled.
def builtin : List (Plugin (HandlerName ε) σ) := [
  plain "html-normalize" .normalize 10 normalize,
  plain "block-structure" .structuring 10 structured,
  plain "text-merge" .structuring 15 mergeTexts,
  plain "list-structure" .structuring 20 markLists,
  plain "table-structure" .structuring 30 flattenTables,
  batched "style-capability" 10 applyStyle do
    let ctx ← get
    return [(.text Dispatch.elementKey, some (.builtin (styleHandler ctx.toSetting)))],
  batched "layout-capability" 20 (applyToElements .layout)
    (return [(.text Dispatch.elementKey, some (.builtin .layout))]),
  batched "media-capability" 100 (applyToElements .media)
    (return [(.text "image", some (.builtin .media))])]

end Passes
end SemanticMarkup
