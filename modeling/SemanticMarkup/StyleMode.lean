import SemanticMarkup.Fault

namespace SemanticMarkup

-- How default styles reach the result: written out in the props, or as class names for which the
-- stylesheet has rules.
inductive StyleMode where
  | inline
  | cssClass
  deriving DecidableEq, Repr

namespace StyleMode

def name : StyleMode → String
  | .inline => "inline"
  | .cssClass => "css-class"

def ofName? (name : String) : Option StyleMode :=
  if name = "inline" then some .inline else if name = "css-class" then some .cssClass else none

def ofValue (given : Value) : Except Fault StyleMode :=
  match given.text?.bind ofName? with
  | some mode => .ok mode
  | none => .error (.value (given.quoted ++ " is not a valid StyleMode"))

theorem ofName?_name (mode : StyleMode) : ofName? mode.name = some mode := by
  cases mode <;> rfl

end StyleMode
end SemanticMarkup
