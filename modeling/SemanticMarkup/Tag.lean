import SemanticMarkup.Node.Basic
import SemanticMarkup.Style

namespace SemanticMarkup

structure TagMapping where
  target : String
  role : Role
  capabilities : Capabilities
  defaultStyle : Table Value

namespace TagMapping

-- The target of line breaks, which become text and no element.
def lineBreak : String := "#break"

def isLineBreak (m : TagMapping) : Bool := m.target == lineBreak
def isVoid (m : TagMapping) : Bool := m.capabilities.isVoid

def withStyle (m : TagMapping) (style : Table Value) : TagMapping :=
  { m with defaultStyle := Table.update m.defaultStyle style }

end TagMapping

namespace Tag

def textColour : Value := .text "var(--mkn-text-color)"
def borderColour : Value := .text "var(--mkn-border-color)"

def block : TagMapping :=
  ⟨"view", .block, .plain .flex, [("flexDirection", .text "column")]⟩

def inlineText : TagMapping := ⟨"text", .inline, .holdsText .inline, [("color", textColour)]⟩

def textContainer : TagMapping := ⟨"text", .textContainer, .holdsText .block, [("color", textColour)]⟩

def tableSection : TagMapping := ⟨"view", .block, .plain .flex, []⟩

def list : TagMapping := block.withStyle [("paddingLeft", .text "5px")]

def cell : TagMapping :=
  ⟨"view", .cell, .plain .flex,
    [("display", .text "flex"), ("flexGrow", .whole 1), ("flexShrink", .whole 1),
     ("flexBasis", .whole 0), ("padding", .text "8px"), ("borderWidth", .text "1px"),
     ("borderStyle", .text "solid"), ("borderColor", borderColour)]⟩

def heading (size margin : String) : TagMapping :=
  textContainer.withStyle
    [("fontSize", .text size), ("fontWeight", .text "bold"), ("margin", .text margin)]

-- The tags that survive, in the order in which the stylesheet lists them. Everything else is
-- dropped with all that is inside it.
def mappings : Table TagMapping := [
  ("div", block),
  ("section", block),
  ("article", block),
  ("header", block),
  ("footer", block),
  ("nav", block),
  ("aside", block),
  ("p", textContainer.withStyle [("marginBottom", .text "1em")]),
  ("span", inlineText),
  ("h1", heading "32px" "10px 0"),
  ("h2", heading "24px" "12px 0"),
  ("h3", heading "20px" "14px 0"),
  ("h4", heading "18px" "16px 0"),
  ("h5", heading "16px" "18px 0"),
  ("h6", heading "14px" "20px 0"),
  ("strong", inlineText.withStyle [("fontWeight", .text "bold")]),
  ("b", inlineText.withStyle [("fontWeight", .text "bold")]),
  ("em", inlineText.withStyle [("fontStyle", .text "italic")]),
  ("i", inlineText.withStyle [("fontStyle", .text "italic")]),
  ("u", inlineText.withStyle [("textDecoration", .text "underline")]),
  ("code", inlineText.withStyle [("fontFamily", .text "monospace")]),
  ("a", ⟨"text", .inline, .holdsText .inline,
    [("color", .text "blue"), ("textDecoration", .text "underline")]⟩),
  ("hr", ⟨"view", .block, .void .block,
    [("height", .text "1px"), ("backgroundColor", .text "var(--mkn-divider-color)"),
     ("margin", .text "1em 0")]⟩),
  ("blockquote", block.withStyle
    [("marginLeft", .text "40px"), ("marginRight", .text "40px"), ("paddingLeft", .text "16px"),
     ("borderLeft", .text "4px solid var(--mkn-blockquote-border)")]),
  ("pre", ⟨"text", .block, .holdsText .block,
    [("color", textColour), ("fontFamily", .text "monospace"),
     ("backgroundColor", .text "var(--mkn-bg-color-tertiary)"), ("padding", .text "16px"),
     ("overflow", .text "auto")]⟩),
  ("img", ⟨"image", .image, .void .flex, []⟩),
  ("br", ⟨TagMapping.lineBreak, .inline, .void .inline, []⟩),
  ("ul", list),
  ("ol", list),
  ("li", block.withStyle [("color", textColour)]),
  ("table", ⟨"view", .table, .plain .flex,
    [("display", .text "flex"), ("flexDirection", .text "column"), ("borderWidth", .text "1px"),
     ("borderStyle", .text "solid"), ("borderColor", borderColour)]⟩),
  ("thead", tableSection),
  ("tbody", tableSection),
  ("tfoot", tableSection),
  ("tr", ⟨"view", .row, .plain .flex,
    [("display", .text "flex"), ("flexDirection", .text "row")]⟩),
  ("th", cell.withStyle
    [("backgroundColor", .text "var(--mkn-bg-color-secondary)"), ("fontWeight", .text "bold"),
     ("color", textColour)]),
  ("td", cell.withStyle [("color", .text "var(--mkn-text-color-secondary)")])]

-- Tags that mark the text below them, with the mark each one adds.
def formatting : Table String :=
  [("strong", "bold"), ("b", "bold"), ("em", "italic"), ("i", "italic"), ("u", "underline"),
   ("code", "code")]

def named? (name : String) : Option TagMapping := Table.get? mappings name

-- The mapping of a name in any case and with blanks around it.
def mapping? (name : String) : Option TagMapping :=
  if name = "" then none else named? (.ofList (Text.lower (Text.trim name.toList)))

def isList (name : String) : Bool := name == "ul" || name == "ol"
def isTableSection (name : String) : Bool := name == "thead" || name == "tbody" || name == "tfoot"

def listItem : String := "li"
def orderedList : String := "ol"
def table : String := "table"
def image : String := "img"

end Tag
end SemanticMarkup
