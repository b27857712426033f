import SemanticMarkup.Tag

namespace SemanticMarkup.Stylesheet

def className? (tag : String) : Option String :=
  (Tag.named? tag).bind fun m =>
    if m.defaultStyle.isEmpty then none else some ("mkn-" ++ tag)

def textClassName? (tag : String) : Option String :=
  (Tag.named? tag).bind fun m =>
    if (Style.inheritable m.defaultStyle).isEmpty then none else some ("mkn-" ++ tag ++ "-text")

def defaultRoot : String := "markupnodes"

def unitless : List String :=
  ["flexGrow", "flexShrink", "fontWeight", "lineHeight", "opacity", "zIndex", "order"]

-- Numbers are lengths in pixels unless they are zero or the property has no unit.
def valueText (prop : String) (value : Value) : String :=
  match value with
  | .flag b => if b then "true" else "false"
  | .whole n _ => if unitless.contains prop || n == 0 then value.shown else value.shown ++ "px"
  | .real x => if unitless.contains prop || x.isZero then value.shown else value.shown ++ "px"
  | other => other.shown

def declarationText (indent : String) (key : String) (value : Value) : String :=
  indent ++ .ofList (Style.toName key.toList) ++ ": " ++ valueText key value ++ ";"

def styleText (style : Table Value) (indent : String) : String :=
  String.intercalate "\n" (style.map fun entry => declarationText indent entry.1 entry.2)

structure Rule where
  className : String
  style : Table Value

-- The rules for elements, then the rules for the text inside them, both in tag order.
def elementRules : List Rule :=
  Tag.mappings.filterMap fun entry =>
    (className? entry.1).map fun name => ⟨name, entry.2.defaultStyle⟩

def textRules : List Rule :=
  Tag.mappings.filterMap fun entry =>
    (textClassName? entry.1).map fun name => ⟨name, Style.inheritable entry.2.defaultStyle⟩

def rules : List Rule := elementRules ++ textRules

def block (selector body : String) : String := selector ++ " \x7b\n" ++ body ++ "\n\x7d"

-- Every rule is scoped under the root class.
def ruleText (root : String) (rule : Rule) : String :=
  block ("." ++ root ++ " ." ++ rule.className) (styleText rule.style "  ")

def header (root : String) : String :=
  "/*\n * markupnodes - default element styles\n * Generated from the tag mapping table\n" ++
    " * Root class: ." ++ root ++ "\n */"

def text (root : String) : String :=
  header root ++ "\n\n" ++ String.intercalate "\n\n" (rules.map (ruleText root)) ++ "\n"

end SemanticMarkup.Stylesheet
