import SemanticMarkup.Value

namespace SemanticMarkup

-- What an element is for. The roles below are the ones that tags map to; a caller may name others.
structure Role where
  name : String
  deriving DecidableEq, Repr

namespace Role

def block : Role := ⟨"block"⟩
def inline : Role := ⟨"inline"⟩
def textContainer : Role := ⟨"textContainer"⟩
def image : Role := ⟨"image"⟩
def table : Role := ⟨"table"⟩
def row : Role := ⟨"row"⟩
def cell : Role := ⟨"cell"⟩

end Role

structure Layout where
  name : String
  deriving DecidableEq, Repr

namespace Layout

def block : Layout := ⟨"block"⟩
def inline : Layout := ⟨"inline"⟩
def flex : Layout := ⟨"flex"⟩

end Layout

-- Structural limits of an element, independent of its style.
structure Capabilities where
  layout : Option Layout
  isVoid : Bool
  textContainer : Bool
  deriving DecidableEq, Repr

namespace Capabilities

def plain (layout : Layout) : Capabilities := ⟨some layout, false, false⟩
def void (layout : Layout) : Capabilities := ⟨some layout, true, false⟩
def holdsText (layout : Layout) : Capabilities := ⟨some layout, false, true⟩

-- A missing layout and a false `text_container` are left out of the written form.
def written (c : Capabilities) : Table Value :=
  [("is_void", .flag c.isVoid)] ++
    (match c.layout with
      | some layout => [("layout", .text layout.name)]
      | none => []) ++
    (if c.textContainer then [("text_container", .flag true)] else [])

end Capabilities

-- What stands for the capabilities of an element: a descriptor, or something else that was put there,
-- of which `null` is nothing.
inductive Limits where
  | known (c : Capabilities)
  | given (v : Value)

namespace Limits

def absent : Limits := .given .null

def orElse : Limits → Capabilities → Limits
  | .given .null, c => .known c
  | l, _ => l

def saysVoid : Limits → Bool
  | .known c => c.isVoid
  | .given _ => false

def foreign? : Limits → Option Value
  | .known _ | .given .null => none
  | .given v => some v

theorem saysVoid_of_foreign {l : Limits} {v : Value} (strange : l.foreign? = some v) :
    l.saysVoid = false := by
  cases l with
  | known c => cases strange
  | given v => rfl

@[simp] theorem foreign?_orElse (l : Limits) (c : Capabilities) : (l.orElse c).foreign? = l.foreign? := by
  unfold orElse
  split <;> rfl

theorem saysVoid_orElse (l : Limits) {c : Capabilities} (holds : c.isVoid = false) :
    (l.orElse c).saysVoid = l.saysVoid := by
  unfold orElse
  split
  · exact holds
  · rfl

end Limits
end SemanticMarkup
