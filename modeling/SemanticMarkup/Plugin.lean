import SemanticMarkup.Context
import SemanticMarkup.Phase
import SemanticMarkup.Text.Numeral

namespace SemanticMarkup

-- What a plugin does, under a label of any shape: its action on the context, and, for plugins
-- whose handlers can share a walk with others, the action that gives the handlers by key.
structure Work (κ σ : Type) where
  label : Value
  apply : Action κ σ Unit
  handlers? : Option (Action κ σ (List (Value × Option κ)))

structure Plugin (κ σ : Type) where
  name : String
  phase : Phase
  order : Int
  enabledByDefault : Bool
  work : Work κ σ

-- A plugin as a caller declares it. The work may lack its action, and what stands for handlers
-- may be no handlers at all.
structure PluginDeclaration (κ σ : Type) where
  name : Value
  phase : Value
  order : Value
  enabledByDefault : Value
  label : Value
  apply : Option (Action κ σ Unit)
  handlers : Option (Option (Action κ σ (List (Value × Option κ))))

namespace Plugin
variable {κ σ : Type}

-- The order that a value gives: numbers are cut off after the point, flags are one or zero, and
-- texts are read as whole numbers.
def orderOf (given : Value) : Except Fault Int :=
  match given with
  | .whole n _ => .ok n
  | .flag b => .ok (if b then 1 else 0)
  | .real .nan => .error (.value "cannot convert float NaN to integer")
  | .real x =>
    match x.truncate? with
    | some n => .ok n
    | none => .error (.overflow "cannot convert float infinity to integer")
  | .text s =>
    match Text.readInt s.toList with
    | .ok n => .ok n
    | .error e => .error (.value (e.message s))
  | other => .error (.type ("int() argument must be a string, a bytes-like object or a real number, not '"
      ++ other.typeName ++ "'"))

-- Checks a declaration: the name, the action, the handlers, the phase and the order, in turn.
def ofDeclaration (d : PluginDeclaration κ σ) : Except Fault (Plugin κ σ) :=
  let refuse (reason : String) : Except Fault (Plugin κ σ) :=
    .error (.config ("Plugin " ++ d.name.quoted ++ ": " ++ reason))
  if !d.name.isTrue then .error (.config "Plugin name must be a non-empty string")
  else
    match d.apply, d.handlers with
    | none, _ => refuse "apply must be callable"
    | some _, some none => refuse "register_handlers must be callable"
    | some apply, handlers => do
      let phase ← Phase.ofValue d.phase
      let order ← orderOf d.order
      return ⟨d.name.shown, phase, order, d.enabledByDefault.isTrue, ⟨d.label, apply, handlers.bind id⟩⟩

def isBatched (p : Plugin κ σ) : Bool := p.work.handlers?.isSome

def inSlotOf (p taken : Plugin κ σ) : Plugin κ σ :=
  ⟨taken.name, taken.phase, taken.order, true, p.work⟩

def quoted (p : Plugin κ σ) : String :=
  "TransformPlugin(" ++ Text.quotedForm p.name ++ ", phase=" ++ Text.quotedForm p.phase.name ++
    ", order=" ++ toString p.order ++ ")"

-- A fault of a plugin, unless it belongs to the transform already.
def blame (name phase : String) (source : Value) (f : Fault) : Fault :=
  if f.ofTransform then f else .plugin (.text name) (.text f.text) phase source (some f)

-- Runs a plugin by itself; its time is taken when it does not fail.
def run (p : Plugin κ σ) : Action κ σ Unit := do
  let ctx ← get
  match p.work.apply.exec ctx with
  | (.ok (), ctx) => set (ctx.withSetting (ctx.toSetting.time p.name))
  | (.error f, ctx) =>
    set ctx
    throw (blame p.name p.phase.name ctx.source f)

end Plugin
end SemanticMarkup
