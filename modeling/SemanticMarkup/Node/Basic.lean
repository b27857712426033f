import SemanticMarkup.Capabilities

namespace SemanticMarkup

-- The part of an element beside its children. Attributes are kept as they were given, whatever
-- they are; what is not of the shape that its reader expects counts as not there. In a sound
-- element the tag is a text that is not empty and the props are a record.
structure ElementHead where
  tag : Value
  props : Value
  role : Value
  capabilities : Limits
  annotations : Value

-- A leaf: content with the marks and styles that its markup ancestors left to it. In a sound leaf
-- the content is a text, and the marks are a record of flags or nothing.
structure TextLeaf where
  content : Value
  marks : Value
  styles : Value
  classes : Value
  annotations : Value

-- What can be put where a list of children belongs and is walked through like the empty list.
inductive Hollow where
  | text
  | record
  deriving DecidableEq, Repr

def Hollow.value : Hollow → Value
  | .text => .text ""
  | .record => .record []

-- The semantic tree. An element is barren when it was left with an empty text or record instead of
-- a list of children. Whatever is neither element nor text is alien: all that can be told about it
-- is what kind it claims to be.
inductive Node where
  | element (head : ElementHead) (children : List Node)
  | barren (head : ElementHead) (given : Hollow)
  | text (leaf : TextLeaf)
  | alien (kind : Value)

instance : Inhabited Node := ⟨.alien .null⟩

namespace Node

def kind : Node → Value
  | .element _ _ | .barren _ _ => .text "element"
  | .text _ => .text "text"
  | .alien kind => kind

def isElement (n : Node) : Bool := n.kind.isText "element"

def head? : Node → Option ElementHead
  | .element head _ | .barren head _ => some head
  | _ => none

def children : Node → List Node
  | .element _ children => children
  | _ => []

def withChildren : Node → List Node → Node
  | .element head _, children => .element head children
  | n, _ => n

@[simp] theorem withChildren_children (n : Node) : n.withChildren n.children = n := by
  cases n <;> rfl

def mapHead (f : ElementHead → ElementHead) : Node → Node
  | .element head children => .element (f head) children
  | .barren head given => .barren (f head) given
  | n => n

def rawAnnotations : Node → Value
  | .element head _ | .barren head _ => head.annotations
  | .text leaf => leaf.annotations
  | .alien _ => .null

def annotations (n : Node) : Table Value := (n.rawAnnotations.record?).getD []

def sourceTag (n : Node) : Value := Table.getD n.annotations "source_tag"

def hasSourceTag (n : Node) (tag : String) : Bool := n.isElement && n.sourceTag.isText tag

def sourceAttributes (n : Node) : Table Value :=
  ((Table.getD n.annotations "source_attrs").record?).getD []

def tag (n : Node) : Value := (n.head?.map ElementHead.tag).getD .null

def role? (n : Node) : Option Role := (n.head?.bind fun head => head.role.text?).map Role.mk

mutual

def size : Node → Nat
  | .element _ children => sizeAll children + 1
  | .barren _ _ => 1
  | .text _ => 1
  | .alien _ => 1

def sizeAll : List Node → Nat
  | [] => 0
  | child :: rest => child.size + sizeAll rest

end

theorem sizeAll_eq_foldr (nodes : List Node) : sizeAll nodes = (nodes.map size).foldr (· + ·) 0 := by
  induction nodes with
  | nil => rfl
  | cons child rest ih => simp [sizeAll, ih]

theorem sizeAll_children_lt (n : Node) : sizeAll n.children < n.size := by
  cases n <;> simp [Node.children, size, sizeAll]

end Node
end SemanticMarkup
