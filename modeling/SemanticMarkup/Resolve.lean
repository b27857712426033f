import SemanticMarkup.Plugin

namespace SemanticMarkup
variable {κ σ : Type}

inductive Candidate (κ σ : Type) where
  | plugin (p : Plugin κ σ)
  | other (given : Value)

-- What a caller changes about the list of plugins: names to leave out, plugins that take over
-- the slot of a named one, and plugins to add.
structure PluginConfig (κ σ : Type) where
  disabled : List Value
  replacements : Table (Plugin κ σ)
  extra : List (Plugin κ σ)

namespace PluginConfig

def empty : PluginConfig κ σ := ⟨[], [], []⟩

-- One name may stand for a list of one.
def namesOf : Value → List Value
  | .list items => items
  | .record fields => (Table.keys fields).map Value.text
  | other => [other]

def replacementsOf : Table (Candidate κ σ) → Except Fault (Table (Plugin κ σ))
  | [] => .ok []
  | (name, .plugin p) :: rest => do
    let plugins ← replacementsOf rest
    return (name, p) :: plugins
  | (name, .other given) :: _ =>
    .error (.type ("Replacement for " ++ Text.quotedForm name ++ " is not a TransformPlugin: " ++
      given.typeName))

def extraOf : List (Candidate κ σ) → Except Fault (List (Plugin κ σ))
  | [] => .ok []
  | .plugin p :: rest => do
    let plugins ← extraOf rest
    return p :: plugins
  | .other given :: _ => .error (.type ("Unsupported plugin: " ++ given.typeName))

-- A configuration of what a caller hands in; the replacements are checked first.
def ofCandidates (disabled : Value) (replacements : Table (Candidate κ σ))
    (extra : List (Candidate κ σ)) : Except Fault (PluginConfig κ σ) := do
  let replacements ← replacementsOf replacements
  let extra ← extraOf extra
  return ⟨namesOf disabled, replacements, extra⟩

def disables (c : PluginConfig κ σ) (name : String) : Bool :=
  c.disabled.any fun given => given.text? == some name

end PluginConfig

namespace Resolve

def before (a b : Plugin κ σ) : Bool :=
  a.phase.rank < b.phase.rank || (a.phase.rank == b.phase.rank && a.order ≤ b.order)

def isKept (c : PluginConfig κ σ) (p : Plugin κ σ) : Bool := p.enabledByDefault && !c.disables p.name

def standIn (c : PluginConfig κ σ) (p : Plugin κ σ) : Plugin κ σ :=
  match Table.get? c.replacements p.name with
  | some replacement => replacement.inSlotOf p
  | none => p

-- The plugins to run: what is left of the given ones, with replacements in their slots, and the
-- extra ones, sorted so that equal ones keep their order.
def plugins (given : List (Plugin κ σ)) (c : PluginConfig κ σ) : List (Plugin κ σ) :=
  ((given.filter (isKept c)).map (standIn c) ++ c.extra).mergeSort before

def inPhase (plugins : List (Plugin κ σ)) (phase : Phase) : List (Plugin κ σ) :=
  plugins.filter fun p => p.phase == phase

end Resolve
end SemanticMarkup
