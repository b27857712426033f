import SemanticMarkup.Dispatch.Registry
import SemanticMarkup.Node.Create
import SemanticMarkup.Node.Replace
import SemanticMarkup.Walk.Find

namespace SemanticMarkup

-- What a transform counts when it is asked to: the nodes of the result, the walks of the
-- capability phase, and the plugins whose time was taken.
structure Metrics where
  nodeCount : Nat
  walks : Nat
  timed : List String

namespace Metrics

def empty : Metrics := ⟨0, 0, []⟩

def time (m : Metrics) (plugin : String) : Metrics :=
  if m.timed.contains plugin then m else { m with timed := m.timed ++ [plugin] }

def countWalk (m : Metrics) : Metrics := { m with walks := m.walks + 1 }

end Metrics

-- What a plugin sees beside the semantic tree. The source is `null` when it is not known. `κ`
-- names handlers, and `σ` is whatever plugins share among themselves. A registry is present just
-- while one plugin registers its handlers.
structure Setting (κ σ : Type) where
  ast : Ast
  metadata : Table Value
  source : Value
  metrics : Option Metrics
  collecting : Option (Dispatch.Registry κ)
  shared : σ

namespace Setting
variable {κ σ : Type}

def option (s : Setting κ σ) (name : String) (default : Value) : Value :=
  (Table.get? s.metadata name).getD default

def setOption (s : Setting κ σ) (name : String) (value : Value) : Setting κ σ :=
  { s with metadata := Table.set s.metadata name value }

def time (s : Setting κ σ) (plugin : String) : Setting κ σ :=
  { s with metrics := s.metrics.map fun m => m.time plugin }

def countWalk (s : Setting κ σ) : Setting κ σ :=
  { s with metrics := s.metrics.map Metrics.countWalk }

def notCollecting : Fault :=
  .runtime "register_handler() is only available while capability handlers are collected"

-- Adds a handler to the registry that is being filled; there is none at any other time.
def register (s : Setting κ σ) (key : Value) (handler : Option κ) : Except Fault (Setting κ σ) :=
  match s.collecting with
  | none => .error notCollecting
  | some registry => (registry.register key handler).map fun r => { s with collecting := some r }

end Setting

structure Context (κ σ : Type) extends Setting κ σ where
  root : Node

-- What a plugin does to the context. A fault keeps what was done before it.
abbrev Action (κ σ α : Type) := ExceptT Fault (StateM (Context κ σ)) α

abbrev Serving (κ σ α : Type) := ExceptT Fault (StateM (Node × Setting κ σ)) α

-- A handler may answer with another node, which takes the place of the one it was given.
abbrev Handler (κ σ : Type) := Serving κ σ (Option Node)

namespace Context
variable {κ σ α : Type}

def withSetting (ctx : Context κ σ) (s : Setting κ σ) : Context κ σ := { s with root := ctx.root }

end Context

namespace Action
variable {κ σ α : Type}

def exec (action : Action κ σ α) (ctx : Context κ σ) : Except Fault α × Context κ σ :=
  action.run.run ctx

def ofSetting (change : Setting κ σ → Except Fault (Setting κ σ)) : Action κ σ Unit := do
  let ctx ← get
  match change ctx.toSetting with
  | .ok s => set (ctx.withSetting s)
  | .error f => throw f

def register (key : Value) (handler : Option κ) : Action κ σ Unit :=
  ofSetting fun s => s.register key handler

-- Edits the semantic tree from the top down. What is edited before a fault stays.
def editNodes (edit : Node → Node) : Action κ σ Unit := do
  let ctx ← get
  let (root, result) := Walk.edited edit ctx.root
  set { ctx with root := root }
  result

def editMarkup (edit : AstHead → AstHead) : Action κ σ Unit := do
  let ctx ← get
  let (ast, result) := Walk.edited (fun a => Ast.node (edit a.head) a.children) ctx.ast
  set { ctx with ast := ast }
  result

def replaceNode (target : Option Path) (replacement : Node) : Action κ σ Unit := do
  let ctx ← get
  match ctx.root.replace target replacement with
  | .top n => set { ctx with root := n }
  | .inside n => set { ctx with root := n }
  | .tooDeep => throw Walk.depthFault

end Action
end SemanticMarkup
