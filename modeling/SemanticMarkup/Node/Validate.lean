import SemanticMarkup.Fault
import SemanticMarkup.Walk

namespace SemanticMarkup.Validate

def markNames : List String := ["bold", "italic", "underline", "code"]

def describe (s : Specimen) (index : Nat) : String :=
  let name := match s with
    | .element head _ | .barren head => head.tag.shown
    | .text _ => "#text"
    | .alien kind => if kind.isText "element" then "?" else "#text"
  name ++ "[" ++ toString index ++ "]"

-- What a check comes upon. What stands for capabilities and is no descriptor cannot be asked whether the
-- element is void.
inductive Problem where
  | invalid (message : String)
  | unreadable (limits : Value)

def missingTag : String := "Element node must have a non-empty string tag"

-- The first thing wrong with an element, in this order: tag, children, props, capabilities, children
-- where there may be none. The children are absent when there is no list of them.
def elementProblem? (head : ElementHead) (children : Option (List Specimen)) : Option Problem :=
  match head.tag, children, head.props with
  | .text "", _, _ => some (.invalid missingTag)
  | .text _, none, _ => some (.invalid "Element node children must be a list")
  | .text tag, some children, .record _ =>
    match head.capabilities.foreign? with
    | some limits => some (.unreadable limits)
    | none =>
      if head.capabilities.saysVoid && !children.isEmpty then
        some (.invalid ("Void element " ++ Text.quotedForm tag ++ " must not have children"))
      else none
  | .text _, some _, _ => some (.invalid "Element node must have a props dict")
  | _, _, _ => some (.invalid missingTag)

def sortedTexts (texts : List String) : List String := texts.mergeSort fun a b => !(b < a)

-- Unknown marks are all named, in order; then the first mark that is not a flag.
def marksProblem? (marks : Table Value) : Option String :=
  let unknown := (Table.keys marks).filter fun key => !markNames.contains key
  if !unknown.isEmpty then
    some ("Invalid mark types: " ++ String.intercalate ", " (sortedTexts unknown) ++
      ". Valid marks are: " ++ String.intercalate ", " markNames)
  else
    marks.findSome? fun entry =>
      match entry.2 with
      | .flag _ => none
      | value => some ("Mark " ++ Text.quotedForm entry.1 ++ " must be a bool, got " ++ value.typeName)

def missingContent : String := "Text node content must be a string"

def textProblem? (leaf : TextLeaf) : Option String :=
  match leaf.content, leaf.marks with
  | .text _, .null => none
  | .text _, .record marks => marksProblem? marks
  | .text _, _ => some "Text node marks must be a dict"
  | _, _ => some missingContent

-- What is wrong with a node by itself. Alien nodes lack what the kind they claim must have.
def problem? : Specimen → Option Problem
  | .element head children => elementProblem? head (some children)
  | .barren head => elementProblem? head none
  | .text leaf => (textProblem? leaf).map Problem.invalid
  | .alien kind =>
    if kind.isText "element" then some (.invalid missingTag)
    else if kind.isText "text" then some (.invalid missingContent)
    else some (.invalid ("Invalid node kind: " ++ kind.quoted ++ ". Expected 'element' or 'text'"))

structure Place where
  path : List String
  node : Specimen

def Place.children (p : Place) : List Place :=
  p.node.children.zipIdx.map fun (child, i) => ⟨p.path ++ [describe child i], child⟩

theorem Place.size_children (p : Place) :
    (p.children.map fun c => c.node.size).foldr (· + ·) 0 < p.node.size := by
  have nodes : (p.children.map fun c => c.node.size) = p.node.children.map Specimen.size := by
    simp only [Place.children, List.map_map]
    rw [show ((fun c : Place => c.node.size) ∘
        fun x : Specimen × Nat => (⟨p.path ++ [describe x.1 x.2], x.1⟩ : Place))
      = Specimen.size ∘ Prod.fst from rfl, ← List.map_map]
    congr 1
    exact List.zipIdx_map_fst 0 p.node.children
  rw [nodes, ← Specimen.sizeAll_eq_foldr]
  exact Specimen.sizeAll_children_lt p.node

-- The fault that tells of a problem. That of something unreadable does not tell the place.
def Problem.fault (p : Place) : Problem → Fault
  | .invalid message => .invalidNode (.text message) p.node p.path
  | .unreadable limits => .missingAttribute limits.typeName "is_void"

-- The fault of one place: a path that is too long counts before anything else.
def fault? (p : Place) : Option Fault :=
  if maxDepth < p.path.length then some (.tooDeep depthLimit "validate" .null none)
  else (problem? p.node).map (Problem.fault p)

def run : List Place → Option Fault
  | [] => none
  | p :: waiting =>
    match fault? p with
    | some fault => some fault
    | none => run (p.children ++ waiting)
termination_by waiting => (waiting.map fun p => p.node.size).foldr (· + ·) 0
decreasing_by
  rw [List.map_append, List.map_cons, List.foldr_cons]
  change List.sum _ < _ + List.sum _
  rw [List.sum_append]
  exact Nat.add_lt_add_right (Place.size_children p) _

def specimen (path : List String) (s : Specimen) : Except Fault Unit :=
  match run [⟨path, s⟩] with
  | some fault => .error fault
  | none => .ok ()

def specimens (list : List Specimen) : Except Fault Unit :=
  list.zipIdx.forM fun (s, i) => specimen [describe s i] s

def nodes (list : List Node) : Except Fault Unit := specimens (list.map Node.specimen)

def notNodes (given : Value) : Fault := .type ("Expected a list of nodes, got " ++ given.typeName)

end SemanticMarkup.Validate
