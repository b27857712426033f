import SemanticMarkup.Markup.Lexer
import SemanticMarkup.Value

namespace SemanticMarkup.Markup

-- A document as it is read: tags, texts, and declarations, which show nothing. A tag may have
-- attributes of any shape.
inductive Piece where
  | tag (name : String) (attributes : Table Value) (children : List Piece)
  | text (data : String)
  | declaration

-- A tag that is still open, with the pieces inside it so far, the last one first.
structure OpenTag where
  name : String
  attributes : Table String
  inside : List Piece

-- A document under construction: the open tags, the innermost first, the finished pieces outside
-- of them, the text read since the last piece, and the names of tags that closed by themselves,
-- for which one end tag each will be passed over.
structure Assembly where
  tags : List OpenTag
  outside : List Piece
  pending : List (List Char)
  selfClosed : List String

namespace Assembly

def start : Assembly := ⟨[], [], [], []⟩

def add (a : Assembly) (piece : Piece) : Assembly :=
  match a.tags with
  | [] => { a with outside := piece :: a.outside }
  | t :: rest => { a with tags := { t with inside := piece :: t.inside } :: rest }

def isSpace (c : Char) : Bool := c == ' ' || c == '\n' || c == '\t' || c == '\x0c' || c == '\r'

def keepsSpace (name : String) : Bool := name == "pre" || name == "textarea"

-- Outside of tags that keep it, text of nothing but spaces becomes one line end or one space.
def textOf (a : Assembly) (data : List Char) : String :=
  if data.all isSpace && !a.tags.any (fun t => keepsSpace t.name) then
    if data.contains '\n' then "\n" else " "
  else .ofList data

def endText (a : Assembly) : Assembly :=
  if a.pending.isEmpty then a
  else { a with pending := [] }.add (.text (a.textOf a.pending.reverse.flatten))

def closeTag (t : OpenTag) : Piece :=
  .tag t.name (Table.mapValues Value.text t.attributes) t.inside.reverse

def pop (a : Assembly) : Assembly :=
  match a.tags with
  | [] => a
  | t :: rest => { a with tags := rest }.add (closeTag t)

def popTo (a : Assembly) (name : String) : Assembly :=
  match a.tags.findIdx? (fun t => t.name == name) with
  | some i => Nat.repeat pop (i + 1) a
  | none => a

def void : List String :=
  ["area", "base", "br", "col", "embed", "hr", "img", "input", "keygen", "link", "menuitem", "meta",
   "param", "source", "track", "wbr", "basefont", "bgsound", "command", "frame", "image", "isindex",
   "nextid", "spacer"]

def step (a : Assembly) (t : Token) : Assembly :=
  match t with
  | .data [] => a
  | .data text => { a with pending := text :: a.pending }
  | .declaration => a.endText.add .declaration
  | .opening name attributes closed =>
    let opened := a.endText
    let opened := { opened with tags := ⟨name, attributes, []⟩ :: opened.tags }
    if closed then opened.pop
    else if void.contains name then
      let closed := opened.pop
      { closed with selfClosed := name :: closed.selfClosed }
    else opened
  | .closing name =>
    if a.selfClosed.contains name then { a with selfClosed := a.selfClosed.erase name }
    else a.endText.popTo name

def finish (a : Assembly) : List Piece :=
  let a := a.endText
  (Nat.repeat pop a.tags.length a).outside.reverse

end Assembly

namespace Piece

def ofTokens (tokens : List Token) : List Piece :=
  (tokens.foldl Assembly.step Assembly.start).finish

end Piece

def read (markup : String) : Except Refusal (List Piece) :=
  (Lexer.scan .fresh markup.toList).map Piece.ofTokens

end SemanticMarkup.Markup
