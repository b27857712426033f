import SemanticMarkup.Context
import SemanticMarkup.Node.Merge
import SemanticMarkup.Stylesheet.Basic
import SemanticMarkup.StyleMode

namespace SemanticMarkup.Passes
variable {κ σ : Type}

-- What markup nodes hand down to the text below them.
structure Inherited where
  marks : Table Value
  styles : Table Value
  classes : List String

namespace Inherited

def nothing : Inherited := ⟨[], [], []⟩

def withMark (i : Inherited) (mark : String) : Inherited :=
  { i with marks := Table.set i.marks mark (.flag true) }

-- Inside an element: its inheritable styles override those from further out, or its text class
-- joins the classes unless it is among them.
def within (i : Inherited) (mode : StyleMode) (tag : String) (m : TagMapping) : Inherited :=
  match mode with
  | .cssClass =>
    match Stylesheet.textClassName? tag with
    | none => i
    | some name => if i.classes.contains name then i else { i with classes := i.classes ++ [name] }
  | .inline => { i with styles := Table.update i.styles (Style.inheritable m.defaultStyle) }

def unlessEmpty (t : Table Value) : Value := if t.isEmpty then .null else .record t

def leaf (i : Inherited) (content source : String) : TextLeaf where
  content := .text content
  marks := unlessEmpty i.marks
  styles := unlessEmpty i.styles
  classes := if i.classes.isEmpty then .null else .text (String.intercalate " " i.classes)
  annotations := .record [("source", .text source)]

end Inherited

def props (mode : StyleMode) (tag : String) (m : TagMapping) : Table Value :=
  match mode with
  | .cssClass =>
    match Stylesheet.className? tag with
    | some name => [("className", .text name)]
    | none => []
  | .inline => [("style", .record m.defaultStyle)]

-- The element of a tag; its target may differ from that of the mapping.
def head (mode : StyleMode) (h : AstHead) (m : TagMapping) (target : String) : ElementHead where
  tag := .text target
  props := .record (props mode h.tagName m)
  role := .text m.role.name
  capabilities := .known m.capabilities
  annotations := .record [("source_tag", .text h.tagName), ("source_attrs", .record h.attributes)]

-- Roles that keep a wrapper around them even when they stand alone in a formatting tag.
def wrappedRoles : List Role := [.block, .textContainer, .table, .row, .cell]

def needsWrapper (n : Node) : Bool :=
  n.isElement && match n.role? with
    | some role => wrappedRoles.contains role
    | none => false

-- What a formatting tag becomes, given what is inside it: nothing, the one node inside, or a
-- wrapper around several.
def formatted (mode : StyleMode) (h : AstHead) (m : TagMapping) (inside : List Node) : List Node :=
  match Node.merged inside with
  | [] => []
  | [only] => if needsWrapper only then [.element (head mode h m "text") [only]] else [only]
  | several => [.element (head mode h m "text") several]

mutual

def convert (mode : StyleMode) (i : Inherited) (depth : Nat) : Ast → Except Fault (List Node)
  | .node h children =>
    if maxDepth < depth then .error (.tooDeep depthLimit "structure" .null none)
    else
      match h.kind with
      | .text =>
        .ok (if h.blank || Text.isAllBlank h.dataText then [] else [.text (i.leaf h.dataText "text")])
      | .root => convertAll mode i (depth + 1) children
      | .tag =>
        match Tag.mapping? h.tagName with
        | none => .ok []
        | some m =>
          if m.isLineBreak then .ok [.text (i.leaf "\n" "br")]
          else
            match Table.get? Tag.formatting h.tagName with
            | some mark => (convertAll mode (i.withMark mark) (depth + 1) children).map (formatted mode h m)
            | none =>
              if m.isVoid then .ok [.element (head mode h m m.target) []]
              else (convertAll mode (i.within mode h.tagName m) (depth + 1) children).map fun inside =>
                [.element (head mode h m m.target) inside]
      | _ => .ok []

def convertAll (mode : StyleMode) (i : Inherited) (depth : Nat) :
    List Ast → Except Fault (List Node)
  | [] => .ok []
  | a :: rest => do
    let nodes ← convert mode i depth a
    let more ← convertAll mode i depth rest
    return nodes ++ more

end

def nodesOf (mode : StyleMode) (a : Ast) : Except Fault (List Node) := convert mode .nothing 0 a

-- Fills the root with the nodes of the markup. It stays as it was when there is a fault.
def structured : Action κ σ Unit := do
  let ctx ← get
  if !ctx.root.isElement then throw (.type "Unsupported root node: TextNode")
  let mode ← StyleMode.ofValue (ctx.option "style_mode" (.text "inline"))
  match nodesOf mode ctx.ast with
  | .ok nodes => set { ctx with root := ctx.root.withChildren (ctx.root.children ++ nodes) }
  | .error f => throw (f.withSource ctx.source)

def mergeTexts : Action κ σ Unit := Action.editNodes fun n => n.withChildren (Node.merged n.children)

end SemanticMarkup.Passes
