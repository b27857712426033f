import SemanticMarkup.Proofs.Merge.Marks
import SemanticMarkup.Proofs.Merge.Runs
import SemanticMarkup.Proofs.Text.Blanks

namespace SemanticMarkup

-- A run ends in a break: it is one, or the last of what was joined was one.
def OpenRun.broken (r : OpenRun) : Bool := r.leaf.isBreak || r.endsInBreak

namespace TextLeaf
open Walk

-- A text as conversion and merging leave it. It always holds something that lasts, so that it
-- cannot be trimmed away unseen; what is still known to be a break is nothing but a line end.
structure Solid (leaf : TextLeaf) : Prop where
  content : ∃ s, leaf.content = .text s
  marks : ∃ t, leaf.marks = Passes.Inherited.unlessEmpty t ∧ Marks.Sound t
  lasting : Text.allBlank leaf.chars = false ∨ '\n' ∈ leaf.chars
  bare : leaf.isBreak = true → leaf.chars = ['\n']

theorem Solid.sameMarks_iff {a b : TextLeaf} (left : a.Solid) (right : b.Solid) :
    a.sameMarks b = true ↔ Marks.held a.marks = Marks.held b.marks := by
  obtain ⟨t, first, sound⟩ := left.marks
  obtain ⟨u, second, other⟩ := right.marks
  rw [sameMarks, first, second]
  exact Marks.same_iff sound other

variable {r : OpenRun} {next : TextLeaf}

theorem content_join (old : ∃ s, r.leaf.content = .text s) (new : ∃ s, next.content = .text s) :
    ∃ s, (r.join next).leaf.content = .text s := by
  obtain ⟨s, left⟩ := old
  obtain ⟨t, right⟩ := new
  simp only [OpenRun.join, left, right]
  split <;> split <;> exact ⟨_, rfl⟩

theorem chars_join (old : ∃ s, r.leaf.content = .text s) (new : ∃ s, next.content = .text s) :
    (r.join next).leaf.chars =
      (if next.isBreak && !r.broken then Text.trimEnd r.leaf.chars else r.leaf.chars) ++
        (if r.broken && !next.isBreak then Text.trimStart next.chars else next.chars) := by
  obtain ⟨s, left⟩ := old
  obtain ⟨t, right⟩ := new
  simp only [OpenRun.join, OpenRun.broken, chars, left, right]
  cases r.leaf.isBreak || r.endsInBreak <;> cases next.isBreak <;>
    simp [Value.mapText, Value.joined, Value.text?, Text.withoutLeadingBlanks,
      Text.toList_withoutTrailingBlanks]

theorem visible_join (old : ∃ s, r.leaf.content = .text s) (new : ∃ s, next.content = .text s) :
    Text.visible (r.join next).leaf.chars =
      Text.visible r.leaf.chars ++ Text.visible next.chars := by
  rw [chars_join old new, Text.visible_append]
  congr 1 <;> split <;> simp only [Text.visible_trimStart, Text.visible_trimEnd]

theorem isBreak_join : (r.join next).leaf.isBreak = false := by
  have annotations : (r.join next).leaf.annotations =
      if r.leaf.isBreak || r.endsInBreak || next.isBreak then .null else r.leaf.annotations := rfl
  rw [isBreak, annotations]
  cases together : r.leaf.isBreak || r.endsInBreak || next.isBreak with
  | true => rfl
  | false =>
    simp only [Bool.or_eq_false_iff] at together
    exact together.1.1

theorem Solid.join (old : r.leaf.Solid) (new : next.Solid) : (r.join next).leaf.Solid := by
  refine ⟨content_join old.content new.content, old.marks, ?_, fun impossible => ?_⟩
  · rw [chars_join old.content new.content]
    cases breaks : next.isBreak with
    | true =>
      rw [new.bare breaks]
      simp
    | false =>
      simp only [Bool.false_and, Bool.false_eq_true, if_false]
      rcases old.lasting with seen | broken
      · exact .inl (by rw [Text.allBlank_append, seen, Bool.false_and])
      · exact .inr (List.mem_append_left _ broken)
  · rw [isBreak_join] at impossible
    cases impossible

-- What a text tells about each of its characters. Marks are told apart by what they hold, not by
-- the order in which they were set.
structure Label where
  marks : String → Option Value
  styles : Value
  classes : Value

def label (leaf : TextLeaf) : Label := ⟨Marks.held leaf.marks, leaf.styles, leaf.classes⟩

def labelled (leaf : TextLeaf) : List (Char × Label) :=
  (Text.visible leaf.chars).map fun c => (c, leaf.label)

structure Under (styles classes : Value) (leaf : TextLeaf) : Prop where
  solid : leaf.Solid
  styled : leaf.styles = styles
  classed : leaf.classes = classes

variable {styles classes : Value}

theorem Under.join (old : r.leaf.Under styles classes) (new : next.Under styles classes) :
    (r.join next).leaf.Under styles classes :=
  ⟨old.solid.join new.solid, old.styled, old.classed⟩

theorem labelled_join (old : r.leaf.Under styles classes) (new : next.Under styles classes)
    (same : r.leaf.sameMarks next = true) :
    (r.join next).leaf.labelled = r.leaf.labelled ++ next.labelled := by
  have visible := visible_join old.solid.content new.solid.content
  have kept : (r.join next).leaf.label = r.leaf.label := rfl
  have equal : next.label = r.leaf.label := by
    have held := (old.solid.sameMarks_iff new.solid).mp same
    simp only [label, held, old.styled, old.classed, new.styled, new.classed]
  simp only [labelled, visible, kept, equal, List.map_append]

end TextLeaf

namespace Node
open Walk

-- The texts of a list are all under the same styles and classes. Merging compares only marks, so
-- without this it would put texts of different styles together.
def Alike (nodes : List Node) : Prop :=
  ∃ styles classes, ∀ leaf, .text leaf ∈ nodes → leaf.Under styles classes

def AlikeInside (n : Node) : Prop := Alike n.children

theorem merged_under {styles classes : Value} {nodes : List Node}
    (given : ∀ leaf, .text leaf ∈ nodes → leaf.Under styles classes) :
    ∀ leaf, .text leaf ∈ merged nodes → leaf.Under styles classes :=
  mergeFrom_texts (fun _ _ old new _ => old.join new) (by simp) given

theorem merged_labelled {nodes : List Node} (alike : Alike nodes) :
    collectAll TextLeaf.labelled (merged nodes) = collectAll TextLeaf.labelled nodes := by
  obtain ⟨styles, classes, given⟩ := alike
  exact collectAll_mergeFrom (fun _ _ old new _ => old.join new)
    (fun _ _ old new same => TextLeaf.labelled_join old new same) (by simp) given

theorem alikeInside_text (leaf : TextLeaf) : AlikeInside (.text leaf) :=
  ⟨.null, .null, by simp [children]⟩

theorem mergeAll_labelled {root : Node} (all : Everywhere AlikeInside root) :
    (mergeAll root).1.collect TextLeaf.labelled = root.collect TextLeaf.labelled := by
  refine collect_editWithin ?_ ?_ _ all
  · intro n alike
    exact collect_withChildren (merged_labelled alike.here)
  · intro n alike c member
    have kept := everywhere_merged (fun leaf => alikeInside_text leaf) alike.inside
    cases n with
    | element head children => exact kept c member
    | _ => cases member

end Node
end SemanticMarkup
