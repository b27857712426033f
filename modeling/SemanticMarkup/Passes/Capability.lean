import SemanticMarkup.Context
import SemanticMarkup.Tag

namespace SemanticMarkup.Passes
variable {κ σ : Type}

def onProps (change : Table Value → Table Value → Table Value) (n : Node) : Node :=
  n.mapHead fun head =>
    match head.props with
    | .record props => { head with props := .record (change n.sourceAttributes props) }
    | _ => head

def styleOf (props : Table Value) : Table Value := (Table.getD props "style").entries

def attributeStyle (attributes : Table Value) : Table Value :=
  Table.mapValues Value.text (Style.parse ((Table.text? attributes "style").getD ""))

def attributeClasses (attributes : Table Value) : String :=
  .ofList (Text.joined [' '] (Text.words ((Table.text? attributes "class").getD "").toList))

-- Declarations of the attribute win over the style that is there.
def addStyle (attributes props : Table Value) : Table Value :=
  let declared := attributeStyle attributes
  if declared.isEmpty then props
  else Table.set props "style" (.record (Table.update (styleOf props) declared))

def addClasses (attributes props : Table Value) : Table Value :=
  let classes := attributeClasses attributes
  if classes = "" then props
  else
    let existing := Table.getD props "className"
    Table.set props "className"
      (.text (if existing.isTrue then existing.shown ++ " " ++ classes else classes))

def mergeAttributes (removeStyle removeClass : Bool) : Node → Node :=
  onProps fun attributes props =>
    let props := if removeStyle then props else addStyle attributes props
    if removeClass then props else addClasses attributes props

def defaultCapabilities : Capabilities := .plain .flex

def ensureCapabilities : Node → Node :=
  Node.mapHead fun head => { head with capabilities := head.capabilities.orElse defaultCapabilities }

def settle (style : Table Value) (side : String) (value : Value) : Table Value :=
  if value.isTrue then Table.set style side value else style

def fill (style : Table Value) (side : String) (value : Value) : Table Value :=
  if (Table.getD style side).isTrue then style else settle style side value

-- The sides of an image come from its own attributes, then from the style that is there, then
-- from its style attribute, and at last are the full width and the height that goes with it.
def imageStyle (attributes style : Table Value) : Table Value :=
  let declared := attributeStyle attributes
  let style := settle style "width" (Table.getD attributes "width")
  let style := settle style "height" (Table.getD attributes "height")
  let style := fill style "width" (Table.getD declared "width")
  let style := fill style "height" (Table.getD declared "height")
  fill (fill style "width" (.text "100%")) "height" (.text "auto")

def imageProps (attributes props : Table Value) : Table Value :=
  let props := settle props "src" (Table.getD attributes "src")
  Table.set props "style" (.record (imageStyle attributes (styleOf props)))

def resolveImage (n : Node) : Node := if n.hasSourceTag Tag.image then onProps imageProps n else n

-- The handlers of the capability passes. The flags of the first one are settled when it is
-- registered.
inductive CapabilityHandler where
  | style (removeStyle removeClass : Bool)
  | layout
  | media
  deriving DecidableEq, Repr

namespace CapabilityHandler

def edit : CapabilityHandler → Node → Node
  | .style removeStyle removeClass => mergeAttributes removeStyle removeClass
  | .layout => ensureCapabilities
  | .media => resolveImage

def noAttributes : Fault := .missingAttribute "TextNode" "source_attrs"

-- A handler leaves the node in its place. Texts have no attributes for the first one to read.
def perform (h : CapabilityHandler) : Serving κ σ (Option Node) := do
  let (n, s) ← get
  match h with
  | .style _ _ => if !n.isElement then throw noAttributes
  | _ => pure ()
  set (h.edit n, s)
  return none

end CapabilityHandler

def styleHandler (s : Setting κ σ) : CapabilityHandler :=
  .style (s.option "remove_all_style" (.flag false)).isTrue
    (s.option "remove_all_class" (.flag true)).isTrue

def applyToElements (h : CapabilityHandler) : Action κ σ Unit :=
  Action.editNodes fun n => if n.isElement then h.edit n else n

def applyStyle : Action κ σ Unit := do
  let ctx ← get
  applyToElements (styleHandler ctx.toSetting)

end SemanticMarkup.Passes
