import SemanticMarkup.Passes.Builtin

namespace SemanticMarkup

-- What can be told about a builtin plugin without running it.
structure PluginInfo where
  name : String
  phase : Phase
  order : Int
  enabledByDefault : Bool
  deriving DecidableEq, Repr

namespace PluginInfo
variable {κ σ : Type}

def ofPlugin (p : Plugin κ σ) : PluginInfo := ⟨p.name, p.phase, p.order, p.enabledByDefault⟩

def all : List PluginInfo := (Passes.builtin : List (Plugin (HandlerName Empty) Unit)).map ofPlugin

def byName? (name : String) : Option PluginInfo := all.find? fun info => info.name == name

def ofPhase (phase : Phase) : List PluginInfo :=
  (all.filter fun info => info.phase == phase).mergeSort fun a b => a.order ≤ b.order

end PluginInfo
end SemanticMarkup
