import SemanticMarkup.Fault

namespace SemanticMarkup

namespace Capabilities

def ofTable (t : Table Value) : Capabilities :=
  ⟨(Table.text? t "layout").map Layout.mk, (Table.getD t "is_void").isTrue,
    (Table.getD t "text_container").isTrue⟩

end Capabilities

namespace ElementHead

def setAttribute (h : ElementHead) (name : String) (value : Value) : ElementHead :=
  match name with
  | "tag" => { h with tag := value }
  | "props" => { h with props := value }
  | "role" => { h with role := value }
  | "capabilities" => { h with capabilities := .given value }
  | "meta" => { h with annotations := value }
  | _ => h

end ElementHead

namespace TextLeaf

def setAttribute (l : TextLeaf) (name : String) (value : Value) : TextLeaf :=
  match name with
  | "content" => { l with content := value }
  | "marks" => { l with marks := value }
  | "inheritable_styles" => { l with styles := value }
  | "inheritable_classes" => { l with classes := value }
  | "meta" => { l with annotations := value }
  | _ => l

end TextLeaf

namespace Written

def unlessNull (key : String) (value : Value) : Table Value := if value.isNull then [] else [(key, value)]

def ifTrue (key : String) (value : Value) : Table Value := if value.isTrue then [(key, value)] else []

def ifEntries (key : String) (value : Value) : Table Value :=
  if value.isTrue then [(key, .record value.entries)] else []

-- An entry for capabilities, if there are any. Only a descriptor has a written form.
def ofLimits : Limits → Except Fault (Table Value)
  | .known c => .ok [("capabilities", .record c.written)]
  | .given .null => .ok []
  | .given other => .error (.missingAttribute other.typeName "is_void")

end Written

namespace ElementHead
open Written

-- The written form of an element without its children. Only tag and props are always there.
def written (h : ElementHead) : Except Fault (Table Value) := do
  let limits ← ofLimits h.capabilities
  return [("kind", .text "element"), ("tag", h.tag), ("props", h.props)] ++ unlessNull "role" h.role ++
    limits ++ ifEntries "meta" h.annotations

end ElementHead

namespace TextLeaf
open Written

def written (l : TextLeaf) : Table Value :=
  [("kind", .text "text"), ("content", l.content)] ++ ifEntries "marks" l.marks ++
    ifEntries "inheritable_styles" l.styles ++ ifTrue "inheritable_classes" l.classes ++
    ifEntries "meta" l.annotations

end TextLeaf

namespace Node

-- Puts something where the children of an element belong. Members of a list that are no nodes
-- are alien. What no walk could go through is not taken.
def setRawChildren (head : ElementHead) : Value → Option Node
  | .list items => some (.element head (items.map fun _ => .alien .null))
  | .text "" => some (.barren head .text)
  | .record [] => some (.barren head .record)
  | _ => none

def setAttribute (n : Node) (name : String) (value : Value) : Option Node :=
  match n with
  | .element head children =>
    if name = "children" then setRawChildren head value
    else some (.element (head.setAttribute name value) children)
  | .barren head given =>
    if name = "children" then setRawChildren head value
    else some (.barren (head.setAttribute name value) given)
  | .text leaf => some (.text (leaf.setAttribute name value))
  | .alien kind => some (.alien kind)

def setChildren (children : List Node) : Node → Node
  | .element head _ | .barren head _ => .element head children
  | n => n

-- Only texts are told by their content, elements by their tag, source and number of children.
def quoted (n : Node) : String :=
  match n with
  | .text leaf =>
    let marks := if leaf.marks.isTrue then ", marks=" ++ leaf.marks.quoted else ""
    "TextNode(" ++ leaf.content.quoted ++ marks ++ ")"
  | n =>
    let source := if n.sourceTag.isTrue then " <" ++ n.sourceTag.shown ++ ">" else ""
    "ElementNode(" ++ n.tag.quoted ++ source ++ ", children=" ++ toString n.children.length ++ ")"

def written : Node → Except Fault (Table Value)
  | .element head _ | .barren head _ => head.written
  | .text leaf => .ok leaf.written
  | .alien kind => .ok [("kind", kind)]

mutual

-- The written form of a whole tree. The children are written before the capabilities are.
def exported : Node → Except Fault Value
  | .element head children => do
    let inside ← exportedAll children
    return .record ((← head.written) ++ [("children", .list inside)])
  | .barren head _ => return .record ((← head.written) ++ [("children", .list [])])
  | .text leaf => .ok (.record leaf.written)
  | .alien kind => .ok (.record [("kind", kind)])

def exportedAll : List Node → Except Fault (List Value)
  | [] => .ok []
  | child :: rest => return (← child.exported) :: (← exportedAll rest)

end

end Node
end SemanticMarkup
