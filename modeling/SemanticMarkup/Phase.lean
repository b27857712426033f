import SemanticMarkup.Fault

namespace SemanticMarkup

-- The stages of a transform, in the order in which they run.
inductive Phase where
  | normalize
  | structuring
  | capability
  | finalize
  deriving DecidableEq, Repr

namespace Phase

def all : List Phase := [.normalize, .structuring, .capability, .finalize]

def name : Phase → String
  | .normalize => "normalize"
  | .structuring => "structure"
  | .capability => "capability"
  | .finalize => "finalize"

def rank : Phase → Nat
  | .normalize => 0
  | .structuring => 1
  | .capability => 2
  | .finalize => 3

def ofName? (name : String) : Option Phase := all.find? fun phase => phase.name == name

def unknown (given : Value) : Fault :=
  .config ("Unknown phase " ++ given.quoted ++ "; expected one of: " ++
    String.intercalate ", " (all.map name))

def ofValue (given : Value) : Except Fault Phase :=
  match ofName? given.shown with
  | some phase => .ok phase
  | none => .error (unknown given)

end Phase
end SemanticMarkup
