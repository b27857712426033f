import SemanticMarkup.Ast.OfMarkup
import SemanticMarkup.Node.Validate
import SemanticMarkup.Options
import SemanticMarkup.Passes.Builtin

namespace SemanticMarkup
variable {ε σ : Type}

-- A transform of markup to semantic nodes, ready for any number of documents: its options, the
-- plugins that it runs, and what the extra handler names stand for.
structure Transformer (ε σ : Type) where
  options : Options (HandlerName ε) σ
  plugins : List (Plugin (HandlerName ε) σ)
  extras : ε → Handler (HandlerName ε) σ

namespace Transformer

def ofOptions (o : Options (HandlerName ε) σ) (extras : ε → Handler (HandlerName ε) σ) :
    Transformer ε σ :=
  ⟨o, Resolve.plugins Passes.builtin (o.plugins.getD .empty), extras⟩

def perform (t : Transformer ε σ) : HandlerName ε → Handler (HandlerName ε) σ :=
  HandlerName.perform t.extras

def start (t : Transformer ε σ) (a : Ast) (source : String) (shared : σ) :
    Context (HandlerName ε) σ where
  ast := a
  metadata := t.options.metadata
  source := .text source
  metrics := if t.options.debug.isTrue then some .empty else none
  collecting := none
  shared := shared
  root := .root

def unreadable (markup : String) (f : Fault) : Fault :=
  if f.ofTransform then f.withSource (.text markup)
  else .transform (.text f.text) "parse" (.text markup) (some f)

def markupOf (given : Value) : Except Fault String :=
  match given with
  | .text markup => .ok markup
  | other => .error (.type ("Expected markup as str, got " ++ other.typeName))

def readWith (reader : Ast.Reader) (markup : String) : Except Fault Ast :=
  match Ast.parseWith reader markup with
  | .ok a => .ok a
  | .error f => .error (unreadable markup f)

def read (markup : String) : Except Fault Ast := readWith Ast.reader markup

def runEach : List (Plugin (HandlerName ε) σ) → Action (HandlerName ε) σ Unit
  | [] => pure ()
  | p :: rest => do
    p.run
    runEach rest

def runPhase (t : Transformer ε σ) (phase : Phase) : Action (HandlerName ε) σ Unit :=
  let plugins := Resolve.inPhase t.plugins phase
  match phase with
  | .capability => Dispatch.phase t.perform plugins .empty
  | _ => runEach plugins

def runPhases (t : Transformer ε σ) : List Phase → Action (HandlerName ε) σ Unit
  | [] => pure ()
  | phase :: rest => do
    t.runPhase phase
    runPhases t rest

def run (t : Transformer ε σ) : Action (HandlerName ε) σ Unit := t.runPhases Phase.all

-- The nodes of a finished tree: the children of the root, or a root that is no element.
def resultOf (root : Node) : List Node := if root.isElement then root.children else [root]

-- Checks the nodes of a finished tree. A root may have been left with something else than a list.
def check (root : Node) : Except Fault Unit :=
  match root with
  | .barren _ given => .error (Validate.notNodes given.value)
  | _ => Validate.nodes (resultOf root)

def countNodes : Action (HandlerName ε) σ Unit := do
  let ctx ← get
  match ctx.metrics with
  | none => pure ()
  | some m =>
    let nodes ← Walk.all ctx.root
    let count := nodes.length - (if ctx.root.isElement then 1 else 0)
    set { ctx with metrics := some { m with nodeCount := count } }

def complete (t : Transformer ε σ) : Action (HandlerName ε) σ (List Node) := do
  t.run
  countNodes
  let ctx ← get
  if t.options.validate.isTrue then check ctx.root
  return resultOf ctx.root

-- Transforms markup: the nodes or the fault, and what the plugins shared.
def transformWith (t : Transformer ε σ) (reader : Ast.Reader) (markup : String) (shared : σ) :
    Except Fault (List Node) × σ :=
  match readWith reader markup with
  | .error f => (.error f, shared)
  | .ok a =>
    match t.complete.exec (t.start a markup shared) with
    | (result, ctx) => (result, ctx.shared)

def transform (t : Transformer ε σ) (markup : String) (shared : σ) : Except Fault (List Node) × σ :=
  t.transformWith Ast.reader markup shared

end Transformer
end SemanticMarkup
