import SemanticMarkup.Proofs.Pipeline.Stages

namespace SemanticMarkup
open Walk Passes

def ElementHead.origin (h : ElementHead) : Value :=
  Table.getD ((h.annotations.record?).getD []) "source_tag"

-- How two trees of one shape may differ: in their elements, though not in what those are and where
-- they are from, and in their texts, though not in what joining reads of them.
structure Likeness where
  heads : ElementHead → ElementHead → Prop
  leaves : TextLeaf → TextLeaf → Prop
  role : ∀ {h k}, heads h k → h.role = k.role
  origin : ∀ {h k}, heads h k → h.origin = k.origin
  content : ∀ {l m}, leaves l m → l.content = m.content
  marks : ∀ {l m}, leaves l m → l.marks = m.marks
  annotations : ∀ {l m}, leaves l m → l.annotations = m.annotations
  refilled : ∀ {l m}, leaves l m → ∀ content annotations,
    leaves { l with content := content, annotations := annotations }
      { m with content := content, annotations := annotations }
  marker : ∀ marker, leaves (markerLeaf marker) (markerLeaf marker)

namespace Node
variable {like : Likeness}

inductive Resembles (like : Likeness) : Node → Node → Prop where
  | element {h k : ElementHead} {cs ds : List Node} (heads : like.heads h k)
    (inside : List.Forall₂ (Resembles like) cs ds) : Resembles like (.element h cs) (.element k ds)
  | text {l m : TextLeaf} (leaves : like.leaves l m) : Resembles like (.text l) (.text m)

namespace Resembles
variable {n m : Node} {kids others : List Node}

theorem isElement (alike : Resembles like n m) : n.isElement = m.isElement := by
  cases alike <;> rfl

theorem sourceTag (alike : Resembles like n m) (element : n.isElement = true) :
    n.sourceTag = m.sourceTag := by
  cases alike with
  | element heads _ => exact like.origin heads
  | text _ => cases element

theorem hasSourceTag (alike : Resembles like n m) (tag : String) :
    n.hasSourceTag tag = m.hasSourceTag tag := by
  unfold Node.hasSourceTag
  rw [← alike.isElement]
  cases element : n.isElement with
  | false => rfl
  | true => rw [alike.sourceTag element]

theorem children (alike : Resembles like n m) :
    List.Forall₂ (Resembles like) n.children m.children := by
  cases alike with
  | element _ inside => exact inside
  | text _ => exact .nil

theorem withChildren (alike : Resembles like n m) (inside : List.Forall₂ (Resembles like) kids others) :
    Resembles like (n.withChildren kids) (m.withChildren others) := by
  cases alike with
  | element heads _ => exact .element heads inside
  | text leaves => exact .text leaves

theorem needsWrapper (alike : Resembles like n m) : needsWrapper n = needsWrapper m := by
  cases alike with
  | element heads _ => simp [Passes.needsWrapper, role?, head?, like.role heads, Node.isElement, kind]
  | text _ => rfl

end Resembles

section Joining
variable {L : TextLeaf → TextLeaf → Prop} {R : Node → Node → Prop}

structure Joinable (L : TextLeaf → TextLeaf → Prop) : Prop where
  content : ∀ {l m}, L l m → l.content = m.content
  annotations : ∀ {l m}, L l m → l.annotations = m.annotations
  sameMarks : ∀ {l m k n}, L l m → L k n → l.sameMarks k = m.sameMarks n
  refilled : ∀ {l m}, L l m → ∀ content annotations,
    L { l with content := content, annotations := annotations }
      { m with content := content, annotations := annotations }

theorem joinable_leaves (like : Likeness) : Joinable like.leaves where
  content := like.content
  annotations := like.annotations
  sameMarks one other := by
    rw [TextLeaf.sameMarks, TextLeaf.sameMarks, like.marks one, like.marks other]
  refilled := like.refilled

-- Runs of texts that are being joined at the same place of two trees.
structure RunsAlike (L : TextLeaf → TextLeaf → Prop) (r q : OpenRun) : Prop where
  leaf : L r.leaf q.leaf
  ends : r.endsInBreak = q.endsInBreak

theorem RunsAlike.start {l m : TextLeaf} (leaves : L l m) : RunsAlike L (.start l) (.start m) :=
  ⟨leaves, rfl⟩

theorem RunsAlike.join (joins : Joinable L) {r q : OpenRun} {l m : TextLeaf} (alike : RunsAlike L r q)
    (leaves : L l m) : RunsAlike L (r.join l) (q.join m) := by
  obtain ⟨old, ends⟩ := alike
  have kept := joins.content old
  have told := joins.annotations old
  have added := joins.content leaves
  have named := joins.annotations leaves
  obtain ⟨first, flag⟩ := r
  obtain ⟨second, other⟩ := q
  obtain ⟨content, _, _, _, annotations⟩ := first
  obtain ⟨content', _, _, _, annotations'⟩ := second
  obtain ⟨new, _, _, _, source⟩ := l
  obtain ⟨new', _, _, _, source'⟩ := m
  dsimp only at kept told added named ends
  subst kept told added named ends
  exact ⟨joins.refilled old _ _, rfl⟩

theorem mergeFrom_related (joins : Joinable L) (texts : ∀ {l m}, L l m → R (.text l) (.text m))
    (parts : ∀ {n m}, R n m → (∃ l k, n = .text l ∧ m = .text k ∧ L l k) ∨
      (∀ l, n ≠ .text l) ∧ ∀ l, m ≠ .text l)
    {nodes others : List Node} (alike : List.Forall₂ R nodes others) {run other : Option OpenRun}
    (runs : Option.Rel (RunsAlike L) run other) :
    List.Forall₂ R (mergeFrom run nodes) (mergeFrom other others) := by
  induction alike generalizing run other with
  | nil =>
    cases runs with
    | none => exact .nil
    | some open_ => exact .cons (texts open_.leaf) .nil
  | cons one _ ih =>
    rcases parts one with ⟨l, k, rfl, rfl, leaves⟩ | ⟨left, right⟩
    · cases runs with
      | none => exact ih (.some (.start leaves))
      | some open_ =>
        simp only [mergeFrom, joins.sameMarks open_.leaf leaves]
        split
        · exact ih (.some (open_.join joins leaves))
        · exact .cons (texts open_.leaf) (ih (.some (.start leaves)))
    · rw [mergeFrom_of_other left, mergeFrom_of_other right]
      cases runs with
      | none => exact .cons one (ih .none)
      | some open_ => exact .cons (texts open_.leaf) (.cons one (ih .none))

end Joining

theorem isList_eq (n : Node) : Passes.isList n = (n.hasSourceTag "ul" || n.hasSourceTag "ol") := by
  unfold Passes.isList hasSourceTag
  cases n.isElement with
  | false => rfl
  | true => cases n.sourceTag <;> rfl

theorem isTableSection_eq (n : Node) : Passes.isTableSection n =
    (n.hasSourceTag "thead" || n.hasSourceTag "tbody" || n.hasSourceTag "tfoot") := by
  unfold Passes.isTableSection hasSourceTag
  cases n.isElement with
  | false => rfl
  | true => cases n.sourceTag <;> rfl

theorem marked_of_text {number : String} {item : Node} {leaf : TextLeaf} {rest : List Node}
    (starts : item.children = .text leaf :: rest) : Passes.marked number item =
      item.withChildren (.text { leaf with content := leaf.content.mapText (number ++ ·) } :: rest) := by
  rw [Passes.marked, starts]

theorem marked_of_other {number : String} {item : Node}
    (other : ∀ leaf rest, item.children ≠ .text leaf :: rest) :
    Passes.marked number item = item.withChildren (.text (markerLeaf number) :: item.children) := by
  unfold Passes.marked
  split
  · rename_i starts
    exact absurd starts (other _ _)
  · rfl

def structuralTags : List String := ["ul", "ol", "li", "table", "thead", "tbody", "tfoot"]

-- A relation of nodes that those passes cannot tell apart: nodes of one kind and one shape, from the
-- same of these tags, with texts that join alike.
structure Kindred (L : TextLeaf → TextLeaf → Prop) (R : Node → Node → Prop) : Prop where
  joins : Joinable L
  marker : ∀ marker, L (markerLeaf marker) (markerLeaf marker)
  texts : ∀ {l m}, L l m → R (.text l) (.text m)
  parts : ∀ {n m}, R n m → (∃ l k, n = .text l ∧ m = .text k ∧ L l k) ∨
    (∀ l, n ≠ .text l) ∧ ∀ l, m ≠ .text l
  hasSourceTag : ∀ {n m}, R n m → ∀ tag ∈ structuralTags, n.hasSourceTag tag = m.hasSourceTag tag
  children : ∀ {n m}, R n m → List.Forall₂ R n.children m.children
  withChildren : ∀ {n m kids others}, R n m → List.Forall₂ R kids others →
    R (n.withChildren kids) (m.withChildren others)

namespace Kindred
variable {L : TextLeaf → TextLeaf → Prop} {R : Node → Node → Prop} (kin : Kindred L R) {n m : Node}
  {nodes others : List Node}
include kin

theorem merged (alike : List.Forall₂ R nodes others) :
    List.Forall₂ R (Node.merged nodes) (Node.merged others) :=
  mergeFrom_related kin.joins kin.texts kin.parts alike .none

theorem mergeChildren (alike : R n m) : R n.mergeChildren m.mergeChildren :=
  kin.withChildren alike (kin.merged (kin.children alike))

theorem isItem (alike : R n m) : Passes.isItem n = Passes.isItem m :=
  kin.hasSourceTag alike _ (by decide)

theorem isList (alike : R n m) : Passes.isList n = Passes.isList m := by
  rw [isList_eq, isList_eq, kin.hasSourceTag alike "ul" (by decide),
    kin.hasSourceTag alike "ol" (by decide)]

theorem isTableSection (alike : R n m) : Passes.isTableSection n = Passes.isTableSection m := by
  rw [isTableSection_eq, isTableSection_eq, kin.hasSourceTag alike "thead" (by decide),
    kin.hasSourceTag alike "tbody" (by decide), kin.hasSourceTag alike "tfoot" (by decide)]

theorem marked (number : String) (alike : R n m) :
    R (Passes.marked number n) (Passes.marked number m) := by
  have inside := kin.children alike
  have before : R (n.withChildren (.text (markerLeaf number) :: n.children))
      (m.withChildren (.text (markerLeaf number) :: m.children)) :=
    kin.withChildren alike (.cons (kin.texts (kin.marker number)) inside)
  cases starts : n.children with
  | nil =>
    rw [starts] at inside
    have none : m.children = [] := List.forall₂_nil_left_iff.mp inside
    rwa [marked_of_other (by simp [starts]), marked_of_other (by simp [none])]
  | cons c cs =>
    rw [starts] at inside
    obtain ⟨d, ds, first, later, starts'⟩ := List.forall₂_cons_left_iff.mp inside
    rcases kin.parts first with ⟨l, k, rfl, rfl, leaves⟩ | ⟨left, right⟩
    · rw [marked_of_text starts, marked_of_text starts', ← kin.joins.content leaves]
      have both := kin.joins.refilled leaves (l.content.mapText (number ++ ·)) l.annotations
      have refilled : L { l with content := l.content.mapText (number ++ ·) }
          { k with content := l.content.mapText (number ++ ·) } := by
        simpa only [kin.joins.annotations leaves] using both
      exact kin.withChildren alike (.cons (kin.texts refilled) later)
    · rwa [marked_of_other (by simpa [starts] using left), marked_of_other (by simpa [starts'] using right)]

theorem markItems (ordered : Bool) (number : Nat) (alike : List.Forall₂ R nodes others) :
    List.Forall₂ R (Passes.markItems ordered number nodes) (Passes.markItems ordered number others) := by
  induction alike generalizing number with
  | nil => exact .nil
  | cons one _ ih =>
    unfold Passes.markItems
    rw [kin.isItem one]
    split
    · exact .cons (kin.marked _ one) (ih _)
    · exact .cons one (ih _)

theorem markListsIn (alike : R n m) : R (Passes.markListsIn n) (Passes.markListsIn m) := by
  unfold Passes.markListsIn
  rw [kin.isList alike]
  split
  · unfold markList
    rw [kin.hasSourceTag alike Tag.orderedList (by decide)]
    exact kin.withChildren alike (kin.markItems _ _ (kin.children alike))
  · exact alike

theorem unwrapped (alike : R n m) : R (Passes.unwrapped n) (Passes.unwrapped m) := by
  unfold Passes.unwrapped
  rw [kin.isTableSection alike]
  split
  · have inside := kin.children alike
    generalize n.children = cs at inside
    generalize m.children = ds at inside
    cases inside with
    | nil => exact alike
    | cons first later =>
      cases later with
      | nil => exact first
      | cons _ _ => exact alike
  · exact alike

theorem flattenIn (alike : R n m) : R (Passes.flattenIn n) (Passes.flattenIn m) := by
  unfold Passes.flattenIn
  rw [kin.hasSourceTag alike Tag.table (by decide)]
  split
  · refine kin.withChildren alike (List.forall₂_map_left_iff.mpr (List.forall₂_map_right_iff.mpr ?_))
    exact (kin.children alike).imp fun _ _ => kin.unwrapped
  · exact alike

end Kindred

theorem kindred_resembles (like : Likeness) : Kindred like.leaves (Resembles like) where
  joins := joinable_leaves like
  marker := like.marker
  texts := .text
  parts alike := by
    cases alike with
    | text leaves => exact .inl ⟨_, _, rfl, rfl, leaves⟩
    | element _ _ => exact .inr ⟨nofun, nofun⟩
  hasSourceTag alike tag _ := alike.hasSourceTag tag
  children := Resembles.children
  withChildren := Resembles.withChildren

theorem merged_resembles {nodes others : List Node}
    (alike : List.Forall₂ (Resembles like) nodes others) :
    List.Forall₂ (Resembles like) (merged nodes) (merged others) := (kindred_resembles like).merged alike

end Node

namespace Walk
open Node
variable {L : TextLeaf → TextLeaf → Prop} {R : Node → Node → Prop} {edit : Node → Node}

theorem editList_kindred {edit : Node → Node × Bool} {nodes others : List Node}
    (each : ∀ n m, R n m → (edit n).2 = (edit m).2 ∧ R (edit n).1 (edit m).1)
    (alike : List.Forall₂ R nodes others) :
    (editList edit nodes).2 = (editList edit others).2 ∧
      List.Forall₂ R (editList edit nodes).1 (editList edit others).1 := by
  induction alike with
  | nil => exact ⟨rfl, .nil⟩
  | @cons n m rest more one tail ih =>
    obtain ⟨flags, left⟩ := each n m one
    rw [editList, editList]
    rcases first : edit n with ⟨a, done⟩
    rcases second : edit m with ⟨b, finished⟩
    rw [first, second] at flags left
    dsimp only at flags left
    subst flags
    cases done with
    | false => exact ⟨rfl, .cons left tail⟩
    | true => exact ⟨ih.1, .cons left ih.2⟩

theorem editWithin_kindred (kin : Kindred L R) (each : ∀ {n m}, R n m → R (edit n) (edit m))
    (levels : Nat) (n m : Node) (alike : R n m) :
    (editWithin edit levels n).2 = (editWithin edit levels m).2 ∧
      R (editWithin edit levels n).1 (editWithin edit levels m).1 := by
  induction levels generalizing n m with
  | zero => exact ⟨rfl, alike⟩
  | succ levels ih =>
    have edited := each alike
    obtain ⟨flags, inside⟩ := editList_kindred ih (kin.children edited)
    exact ⟨flags, kin.withChildren edited inside⟩

theorem finished_kindred (kin : Kindred L R) (each : ∀ {n m}, R n m → R (edit n) (edit m)) {n m : Node}
    (alike : R n m) : Paired R (finished edit n) (finished edit m) := by
  obtain ⟨flags, left⟩ := editWithin_kindred kin each (maxDepth + 1) n m alike
  unfold finished editAll
  rw [flags]
  split
  · exact .ok left
  · exact .error _ _

end Walk
end SemanticMarkup
