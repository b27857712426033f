import SemanticMarkup.Dispatch.Registry

namespace SemanticMarkup

namespace Dispatch

-- What a node asks for: the handlers of a key, for an element or for something else. The key of
-- an element is its tag, whatever that is.
structure Question where
  key : Value
  forElement : Bool

def Question.same (q other : Question) : Bool :=
  q.key.same other.key && q.forElement == other.forElement

end Dispatch

def Node.question (n : Node) : Dispatch.Question :=
  if n.isElement then ⟨n.tag, true⟩ else ⟨.text Dispatch.textKey, false⟩

namespace Dispatch
variable {κ : Type}

-- Only texts are keys under which handlers are registered.
def Registry.answer (r : Registry κ) (q : Question) : List (Entry κ) :=
  match q.key with
  | .text key => r.lookup key q.forElement
  | _ => if q.forElement then r.entries elementKey else []

-- A registry with the answers that it has given since it last changed. A question that has been
-- answered is not looked up again.
structure Dispatcher (κ : Type) where
  registry : Registry κ
  answers : List (Question × List (Entry κ))

namespace Dispatcher

def ofRegistry (r : Registry κ) : Dispatcher κ := ⟨r, []⟩

def empty : Dispatcher κ := ofRegistry .empty

def register (d : Dispatcher κ) (key : Value) (handler : Option κ) :
    Except Fault Unit × Dispatcher κ :=
  match d.registry.register key handler with
  | .ok filled => (.ok (), ofRegistry filled)
  | .error f => (.error f, d)

def clear (d : Dispatcher κ) : Dispatcher κ := ofRegistry d.registry.clear

def known? (d : Dispatcher κ) (q : Question) : Option (List (Entry κ)) :=
  (d.answers.find? fun known => known.1.same q).map Prod.snd

def ask (d : Dispatcher κ) (q : Question) : List (Entry κ) × Dispatcher κ :=
  match d.known? q with
  | some entries => (entries, d)
  | none => (d.registry.answer q, { d with answers := (q, d.registry.answer q) :: d.answers })

end Dispatcher
end Dispatch
end SemanticMarkup
