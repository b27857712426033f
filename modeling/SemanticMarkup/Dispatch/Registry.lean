import SemanticMarkup.Fault

namespace SemanticMarkup.Dispatch

-- The key of texts, and the key under which a handler serves every element. Any other key is the
-- tag of the elements that its handlers serve.
def textKey : String := "#text"
def elementKey : String := "*"

structure Entry (κ : Type) where
  turn : Nat
  owner : String
  handler : κ

-- Handlers by key, and who is registering. Handlers are given by name; what a name does is
-- nothing to the registry.
structure Registry (κ : Type) where
  byKey : Table (List (Entry κ))
  count : Nat
  registrant : Option String

namespace Registry
variable {κ : Type}

def empty : Registry κ := ⟨[], 0, none⟩

instance : Inhabited (Registry κ) := ⟨empty⟩

def entries (r : Registry κ) (key : String) : List (Entry κ) := (Table.get? r.byKey key).getD []

def owner (r : Registry κ) : String := (r.registrant.filter (· ≠ "")).getD "<anonymous>"

def insert (r : Registry κ) (key : String) (handler : κ) : Registry κ :=
  { r with
    byKey := Table.set r.byKey key (r.entries key ++ [⟨r.count, r.owner, handler⟩])
    count := r.count + 1 }

-- Registers a handler. A key that is no text or empty is refused, and so is something that is
-- no handler.
def register (r : Registry κ) (key : Value) (handler : Option κ) : Except Fault (Registry κ) :=
  let refuse (reason : String) : Except Fault (Registry κ) :=
    .error (.config ("Plugin " ++ Text.quotedForm r.owner ++ ": " ++ reason))
  match key, handler with
  | .text "", _ => refuse "dispatch key must be a non-empty string, got ''"
  | .text _, none => refuse ("handler for " ++ key.quoted ++ " is not callable")
  | .text name, some handler => .ok (r.insert name handler)
  | _, _ => refuse ("dispatch key must be a non-empty string, got " ++ key.quoted)

def withPair (pairs : List (Value × Option κ)) (key : Value) (handler : Option κ) :
    List (Value × Option κ) :=
  if pairs.any fun p => p.1.same key then
    pairs.map fun p => if p.1.same key then (p.1, handler) else p
  else pairs ++ [(key, handler)]

def mapping (pairs : List (Value × Option κ)) : List (Value × Option κ) :=
  pairs.foldl (fun done p => withPair done p.1 p.2) []

-- Registers pairs one after the other; those before a refused one stay registered.
def registerAll (r : Registry κ) : List (Value × Option κ) → Except Fault Unit × Registry κ
  | [] => (.ok (), r)
  | (key, handler) :: rest =>
    match r.register key handler with
    | .ok r => registerAll r rest
    | .error f => (.error f, r)

def clear (r : Registry κ) : Registry κ := { r with byKey := [], count := 0 }

-- The handlers of a key in the order of their registration. For an element those that serve
-- every element take their turn among them.
def lookup (r : Registry κ) (key : String) (forElement : Bool) : List (Entry κ) :=
  if forElement && key != elementKey then
    (r.entries key ++ r.entries elementKey).mergeSort fun a b => a.turn ≤ b.turn
  else r.entries key

def forNode (r : Registry κ) (n : Node) : List (Entry κ) :=
  if n.isElement then
    match n.tag with
    | .text tag => r.lookup tag true
    | _ => r.entries elementKey
  else r.lookup textKey false

end Registry
end SemanticMarkup.Dispatch
