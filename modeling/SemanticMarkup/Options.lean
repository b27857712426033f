import SemanticMarkup.Resolve
import SemanticMarkup.StyleMode
import SemanticMarkup.Stylesheet.Basic

namespace SemanticMarkup
variable {κ σ : Type}

inductive ConfigCandidate (κ σ : Type) where
  | none
  | config (c : PluginConfig κ σ)
  | other (given : Value)

-- The settings of a transform. Flags and the root class are kept as they are given.
structure Options (κ σ : Type) where
  removeAllClass : Value
  removeAllStyle : Value
  styleMode : StyleMode
  rootClass : Value
  plugins : Option (PluginConfig κ σ)
  debug : Value
  validate : Value

structure OptionsDraft (κ σ : Type) where
  removeAllClass : Value := .flag true
  removeAllStyle : Value := .flag false
  styleMode : Value := .text "inline"
  rootClass : Value := .text Stylesheet.defaultRoot
  plugins : ConfigCandidate κ σ := .none
  debug : Value := .flag false
  validate : Value := .flag false

namespace Options

def unknownMode (given : Value) : Fault :=
  .value ("Unknown style_mode " ++ given.quoted ++ "; expected 'inline' or 'css-class'")

def notOptions (given : Value) : Fault :=
  .type ("options must be TransformOptions, got " ++ given.typeName)

def ofDraft (d : OptionsDraft κ σ) : Except Fault (Options κ σ) :=
  match StyleMode.ofName? d.styleMode.shown with
  | none => .error (unknownMode d.styleMode)
  | some mode =>
    let withPlugins (plugins : Option (PluginConfig κ σ)) : Options κ σ :=
      ⟨d.removeAllClass, d.removeAllStyle, mode, d.rootClass, plugins, d.debug, d.validate⟩
    match d.plugins with
    | .none => .ok (withPlugins none)
    | .config c => .ok (withPlugins (some c))
    | .other given => .error (.type ("plugins must be a PluginConfig, got " ++ given.typeName))

-- What plugins find in the metadata of a transform when it begins.
def metadata (o : Options κ σ) : Table Value :=
  [("remove_all_class", o.removeAllClass), ("remove_all_style", o.removeAllStyle),
    ("style_mode", .text o.styleMode.name), ("root_class_name", o.rootClass)]

end Options
end SemanticMarkup
