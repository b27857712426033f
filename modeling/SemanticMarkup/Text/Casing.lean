import SemanticMarkup.Text.CaseTable

namespace SemanticMarkup.Text

-- Lower case of one character outside of any context. ASCII is read off directly; the dotted
-- capital I is the one character that becomes two.
def lowerOf (c : Char) : List Char :=
  if c.toNat < 0x80 then [c.toLower]
  else if c.toNat = 0x130 then ['i', Char.ofNat 0x307]
  else match CaseTable.lowered.find? (fun entry => entry.1.holds c.toNat) with
    | some entry => [Char.ofNat ((c.toNat : Int) + entry.2).toNat]
    | none => [c]

def isUpper (c : Char) : Bool :=
  if c.toNat < 0x80 then c.isUpper else Span.anyHolds CaseTable.upper c

def isCased (c : Char) : Bool :=
  if c.toNat < 0x80 then c.isAlpha else Span.anyHolds CaseTable.cased c

def letterNext (cs : List Char) : Bool :=
  match cs.dropWhile (Span.anyHolds CaseTable.ignorable) with
  | [] => false
  | c :: _ => isCased c

-- A capital sigma closes a word when a letter stands before it and none after it.
def lowerFrom (before : List Char) : List Char → List Char
  | [] => []
  | c :: rest =>
    let here :=
      if c.toNat = 0x3A3 then
        [if letterNext before && !letterNext rest then Char.ofNat 0x3C2 else Char.ofNat 0x3C3]
      else lowerOf c
    here ++ lowerFrom (c :: before) rest

def lower (cs : List Char) : List Char := lowerFrom [] cs

@[simp] theorem lower_nil : lower [] = [] := rfl

theorem lowerOf_ascii {c : Char} (ascii : c.toNat < 0x80) : lowerOf c = [c.toLower] := by
  simp [lowerOf, ascii]

theorem lowerFrom_ascii (before : List Char) {cs : List Char} (ascii : ∀ c ∈ cs, c.toNat < 0x80) :
    lowerFrom before cs = cs.map Char.toLower := by
  induction cs generalizing before with
  | nil => rfl
  | cons c rest ih =>
    have hc := ascii c (by simp)
    have notSigma : c.toNat ≠ 0x3A3 := by omega
    simp only [lowerFrom, if_neg notSigma, lowerOf_ascii hc, List.singleton_append, List.map_cons]
    rw [ih (c :: before) fun d hd => ascii d (by simp [hd])]

theorem lower_ascii {cs : List Char} (ascii : ∀ c ∈ cs, c.toNat < 0x80) :
    lower cs = cs.map Char.toLower := lowerFrom_ascii [] ascii

def lowered (s : String) : String := .ofList (lower s.toList)

end SemanticMarkup.Text
