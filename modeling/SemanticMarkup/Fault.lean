import SemanticMarkup.Node.Specimen

namespace SemanticMarkup

inductive FaultKind where
  | config
  | value
  | key
  | runtime
  | type
  | attribute
  | rejected
  | division
  | overflow
  deriving DecidableEq, Repr

namespace FaultKind

def all : List FaultKind :=
  [.config, .value, .key, .runtime, .type, .attribute, .rejected, .division, .overflow]

def name : FaultKind → String
  | .config => "PluginConfigError"
  | .value => "ValueError"
  | .key => "KeyError"
  | .runtime => "RuntimeError"
  | .type => "TypeError"
  | .attribute => "AttributeError"
  | .rejected => "ParserRejectedMarkup"
  | .division => "ZeroDivisionError"
  | .overflow => "OverflowError"

def ofName? (name : String) : Option FaultKind := all.find? fun kind => kind.name == name

theorem ofName?_name (kind : FaultKind) : ofName? kind.name = some kind := by
  cases kind <;> decide

end FaultKind

-- What can go wrong. The first three belong to a running transform: they carry the phase, the
-- source markup, `null` when it is not known, and the fault that they wrap, if any. What a caller
-- raises is kept as it was given; the faults raised here have texts for messages and sources.
inductive Fault where
  | transform (message : Value) (phase : String) (source : Value) (cause : Option Fault)
  | plugin (name message : Value) (phase : String) (source : Value) (cause : Option Fault)
  | tooDeep (limit : Value) (phase : String) (source : Value) (cause : Option Fault)
  | invalidNode (message : Value) (node : Specimen) (path : List String)
  | plain (kind : FaultKind) (message : Value)

namespace Fault

def config (message : String) : Fault := .plain .config (.text message)
def value (message : String) : Fault := .plain .value (.text message)
def runtime (message : String) : Fault := .plain .runtime (.text message)
def type (message : String) : Fault := .plain .type (.text message)
def missingAttribute (owner name : String) : Fault :=
  .plain .attribute (.text ("'" ++ owner ++ "' object has no attribute '" ++ name ++ "'"))
def rejected (message : String) : Fault := .plain .rejected (.text message)
def division (message : String) : Fault := .plain .division (.text message)
def overflow (message : String) : Fault := .plain .overflow (.text message)

def kindName : Fault → String
  | .transform .. => "TransformError"
  | .plugin .. => "PluginError"
  | .tooDeep .. => "NestingDepthError"
  | .invalidNode .. => "NodeValidationError"
  | .plain kind _ => kind.name

-- Raised by a running transform, as against by a plugin or a caller.
def ofTransform : Fault → Bool
  | .transform .. | .plugin .. | .tooDeep .. => true
  | _ => false

def ofValue : Fault → Bool
  | .invalidNode .. | .plain .config _ | .plain .value _ => true
  | _ => false

def phase? : Fault → Option String
  | .transform _ phase _ _ | .plugin _ _ phase _ _ | .tooDeep _ phase _ _ => some phase
  | _ => none

def source : Fault → Value
  | .transform _ _ source _ | .plugin _ _ _ source _ | .tooDeep _ _ source _ => source
  | _ => .null

def cause? : Fault → Option Fault
  | .transform _ _ _ cause | .plugin _ _ _ _ cause | .tooDeep _ _ _ cause => cause
  | _ => none

def pluginName? : Fault → Option Value
  | .plugin name _ _ _ _ => some name
  | _ => none

def withSource (source : Value) : Fault → Fault
  | .transform message phase _ cause => .transform message phase source cause
  | .plugin name message phase _ cause => .plugin name message phase source cause
  | .tooDeep limit phase _ cause => .tooDeep limit phase source cause
  | other => other

def withCause (cause : Option Fault) : Fault → Fault
  | .transform message phase source _ => .transform message phase source cause
  | .plugin name message phase source _ => .plugin name message phase source cause
  | .tooDeep limit phase source _ => .tooDeep limit phase source cause
  | other => other

def message : Fault → Value
  | .plugin name message phase _ _ =>
    .text (name.shown ++ " failed in phase " ++ phase ++ ": " ++ message.shown)
  | .tooDeep limit _ _ _ => .text ("tree nesting exceeds the maximum depth of " ++ limit.shown)
  | .transform message _ _ _ | .invalidNode message _ _ | .plain _ message => message

-- The text of a fault: transform faults name their phase, invalid nodes their place, and a
-- missing key is quoted.
def text (f : Fault) : String :=
  match f with
  | .transform _ phase _ _ | .plugin _ _ phase _ _ | .tooDeep _ phase _ _ =>
    "[transform error in " ++ phase ++ "] " ++ f.message.shown
  | .invalidNode message _ path =>
    let place := if path.isEmpty then "<root>" else String.intercalate "/" path
    message.shown ++ " (at " ++ place ++ ")"
  | .plain .key message => message.quoted
  | .plain _ message => message.shown

def quoted (f : Fault) : String :=
  match f with
  | .transform _ phase _ _ | .tooDeep _ phase _ _ =>
    f.kindName ++ "(" ++ f.message.quoted ++ ", phase=" ++ Text.quotedForm phase ++ ")"
  | .plugin name _ phase _ _ =>
    "PluginError(plugin_name=" ++ name.quoted ++ ", phase=" ++ Text.quotedForm phase ++ ")"
  | .plain kind message => kind.name ++ "(" ++ message.quoted ++ ")"
  | f => f.kindName ++ "(" ++ Text.quotedForm f.text ++ ")"

-- The first characters of a text, with dots when there are more.
def excerpt (limit : Nat) (text : String) : String :=
  if text.length ≤ limit then text else .ofList (text.toList.take limit) ++ "..."

-- The same of any source: the first items of a list, and other values whole.
def sourceExcerpt (limit : Nat) : Value → String
  | .text s => excerpt limit s
  | .list items =>
    if items.length ≤ limit then (Value.list items).quoted
    else (Value.list (items.take limit)).quoted ++ "..."
  | v => v.quoted

def headLines (head : ElementHead) (children : Option (List Specimen)) : List String :=
  let source := Table.getD ((head.annotations.record?).getD []) "source_tag"
  ["Node kind: element", "Node tag: " ++ head.tag.shown] ++
    (match children with
      | some children => ["Children count: " ++ toString children.length]
      | none => []) ++
    (if source.isTrue then ["Source tag: " ++ source.shown] else [])

def contentLine (content : String) : String := "Text content (first 50 chars): " ++ excerpt 50 content

def nodeLines : Specimen → List String
  | .element head children => headLines head (some children)
  | .barren head => headLines head none
  | .text leaf =>
    "Node kind: text" :: match leaf.content with
      | .text content => [contentLine content]
      | _ => []
  | .alien kind =>
    ("Node kind: " ++ kind.shown) ::
      if kind.isText "element" then ["Node tag: None"]
      else if kind.isText "text" then [contentLine ""]
      else []

-- The report of a fault, line by line; none for faults that have nothing to add to their text.
def reportLines? (f : Fault) : Option (List String) :=
  match f with
  | .transform _ phase source cause | .plugin _ _ phase source cause
  | .tooDeep _ phase source cause =>
    some ([f.text, "Phase: " ++ phase] ++
      (match cause with
        | some cause => ["Caused by: " ++ cause.kindName ++ ": " ++ cause.text]
        | none => []) ++
      (if source.isNull then [] else ["HTML (first 200 chars): " ++ sourceExcerpt 200 source]))
  | .invalidNode _ node _ => some (f.text :: nodeLines node)
  | _ => none

def report? (f : Fault) : Option String :=
  f.reportLines?.map fun lines => String.intercalate "\n" lines ++ "\n"

end Fault
end SemanticMarkup
