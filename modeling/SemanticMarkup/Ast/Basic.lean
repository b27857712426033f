import SemanticMarkup.Value

namespace SemanticMarkup

-- What a markup node is. Only roots, texts and tags carry anything into a semantic tree.
inductive AstKind where
  | root
  | text
  | tag
  | script
  | style
  | other (given : Value)

namespace AstKind

def label : AstKind → Value
  | .root => .text "root"
  | .text => .text "text"
  | .tag => .text "tag"
  | .script => .text "script"
  | .style => .text "style"
  | .other given => given

def ofLabel : Value → AstKind
  | .text "root" => .root
  | .text "text" => .text
  | .text "tag" => .tag
  | .text "script" => .script
  | .text "style" => .style
  | given => .other given

theorem ofLabel_label_known (k : AstKind) (known : ∀ given, k ≠ .other given) :
    ofLabel k.label = k := by
  cases k with
  | other given => exact absurd rfl (known given)
  | _ => rfl

end AstKind

-- A markup node beside its children. A parser gives texts for the data, the name and all
-- attributes, and `null` for what a node does not have. `blank` is set on texts that were found to
-- hold nothing but blanks.
structure AstHead where
  kind : AstKind
  data : Value
  name : Value
  attributes : Table Value
  blank : Bool

namespace AstHead

def root : AstHead := ⟨.root, .null, .null, [], false⟩
def text (data : String) : AstHead := ⟨.text, .text data, .null, [], false⟩

def tag (name : String) (attributes : Table String) : AstHead :=
  let kind := if name = "script" then .script else if name = "style" then .style else .tag
  ⟨kind, .null, .text name, Table.mapValues Value.text attributes, false⟩

def isText (h : AstHead) : Bool :=
  match h.kind with
  | .text => true
  | _ => false

def isTag (h : AstHead) : Bool :=
  match h.kind with
  | .tag => true
  | _ => false

def tagName (h : AstHead) : String := (h.name.text?).getD ""

def dataText (h : AstHead) : String := (h.data.text?).getD ""

end AstHead

inductive Ast where
  | node (head : AstHead) (children : List Ast)

instance : Inhabited Ast := ⟨.node .root []⟩

namespace Ast

def head : Ast → AstHead
  | .node head _ => head

def children : Ast → List Ast
  | .node _ children => children

def withChildren : Ast → List Ast → Ast
  | .node head _, children => .node head children

@[simp] theorem withChildren_children (a : Ast) : a.withChildren a.children = a := by
  cases a
  rfl

mutual

def size : Ast → Nat
  | .node _ children => sizeAll children + 1

def sizeAll : List Ast → Nat
  | [] => 0
  | child :: rest => child.size + sizeAll rest

end

theorem sizeAll_eq_foldr (trees : List Ast) : sizeAll trees = (trees.map size).foldr (· + ·) 0 := by
  induction trees with
  | nil => rfl
  | cons child rest ih => simp [sizeAll, ih]

theorem sizeAll_children_lt (a : Ast) : sizeAll a.children < a.size := by
  cases a with
  | node _ children => simp [Ast.children, size]

def quoted (a : Ast) : String :=
  if a.head.isText then "AstNode(text, " ++ a.head.data.quoted ++ ")"
  else
    let name := if a.head.name.isTrue then ", <" ++ a.head.name.shown ++ ">" else ""
    "AstNode(" ++ a.head.kind.label.shown ++ name ++ ", children=" ++ toString a.children.length ++ ")"

end Ast
end SemanticMarkup
