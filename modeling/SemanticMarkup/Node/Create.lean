import SemanticMarkup.Node.Basic

namespace SemanticMarkup

-- What a caller asks for when it makes a node; what is missing is `null`.
structure NodeDraft where
  kind : Value := .null
  content : Value := .null
  marks : Value := .null
  styles : Value := .null
  classes : Value := .null
  tag : Value := .null
  props : Value := .null
  children : Option (List Node) := none
  role : Value := .null
  capabilities : Limits := .absent
  annotations : Value := .null

namespace Node

def unlessEmpty (v : Value) : Value := v.orElse .null

-- A draft makes a text when it says so, or when it names no kind and has content.
def ofDraft (d : NodeDraft) : Node :=
  if d.kind.isText "text" || (d.kind.isNull && !d.content.isNull) then
    .text {
      content := d.content.orElse (.text "")
      marks := unlessEmpty d.marks
      styles := unlessEmpty d.styles
      classes := unlessEmpty d.classes
      annotations := unlessEmpty d.annotations }
  else
    .element {
      tag := d.tag.orElse (.text "view")
      props := if d.props.isNull then .record [] else d.props
      role := d.role
      capabilities := d.capabilities
      annotations := unlessEmpty d.annotations } (d.children.getD [])

-- The container that a transform fills. It is never part of the result.
def root : Node := .element ⟨.text "root", .record [], .null, .absent, .record []⟩ []

end Node
end SemanticMarkup
