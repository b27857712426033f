import SemanticMarkup.Text.Blank
import SemanticMarkup.Walk

namespace SemanticMarkup

namespace Marks

-- No marks and an empty table of marks are the same.
def same (a b : Value) : Bool := (a.orElse (.record [])).same (b.orElse (.record []))

def anySet (marks : Value) : Bool := ((marks.record?).getD []).any fun entry => entry.2.isTrue

end Marks

namespace TextLeaf

def isBreak (leaf : TextLeaf) : Bool :=
  (Table.getD ((leaf.annotations.record?).getD []) "source").isText "br"

def sameMarks (a b : TextLeaf) : Bool := Marks.same a.marks b.marks

end TextLeaf

-- A run of texts that is being merged: what it has become so far, and whether it is known to end
-- in a line break although its annotations no longer say so.
structure OpenRun where
  leaf : TextLeaf
  endsInBreak : Bool

namespace OpenRun

def start (leaf : TextLeaf) : OpenRun := ⟨leaf, false⟩

-- Joins the next text to a run. Next to a break, blanks of the other side go and the
-- annotations are dropped.
def join (r : OpenRun) (next : TextLeaf) : OpenRun :=
  let broken := r.leaf.isBreak || r.endsInBreak
  let breaks := next.isBreak
  let content :=
    if broken && !breaks then next.content.mapText Text.withoutLeadingBlanks else next.content
  let before :=
    if breaks && !broken then r.leaf.content.mapText Text.withoutTrailingBlanks else r.leaf.content
  let annotations := if broken || breaks then .null else r.leaf.annotations
  ⟨{ r.leaf with content := before.joined content, annotations := annotations },
    breaks || (r.endsInBreak && !content.isTrue)⟩

end OpenRun

namespace Node

-- Merges what is left of a list after an open run, which a text with other marks, or anything
-- that is no text, closes.
def mergeFrom : Option OpenRun → List Node → List Node
  | none, [] => []
  | some r, [] => [.text r.leaf]
  | none, .text leaf :: rest => mergeFrom (some (.start leaf)) rest
  | some r, .text leaf :: rest =>
    if r.leaf.sameMarks leaf then mergeFrom (some (r.join leaf)) rest
    else .text r.leaf :: mergeFrom (some (.start leaf)) rest
  | none, n :: rest => n :: mergeFrom none rest
  | some r, n :: rest => .text r.leaf :: n :: mergeFrom none rest

def merged (nodes : List Node) : List Node := mergeFrom none nodes

def mergeAll (root : Node) : Node × Bool :=
  Walk.editAll (fun n => n.withChildren (merged n.children)) root

end Node
end SemanticMarkup
