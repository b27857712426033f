import SemanticMarkup.Proofs.Conversion.Breaks
import SemanticMarkup.Proofs.Merge.Segments
import SemanticMarkup.Proofs.Pipeline.Actions
import SemanticMarkup.Proofs.Pipeline.Markers
import SemanticMarkup.Proofs.Tree.Shallow

namespace SemanticMarkup
open Walk

namespace Passes
variable {κ σ : Type} {own : Option String}

-- What the child at a place of a list is labelled with, if it is an item: its number counts the
-- items up to that place. Nothing but a list labels its children.
def label (list : Node) (place : Nat) : Option String :=
  if isList list && (list.children[place]?).any isItem then
    some (marker (list.hasSourceTag Tag.orderedList) ((list.children.take (place + 1)).countP isItem))
  else none

-- The children of an item under its label: a text that they begin with goes on after the label, and
-- otherwise the label is a text of its own.
def fronted : Option String → List Node → List Node
  | none, kids => kids
  | some label, .text leaf :: rest =>
    .text { leaf with content := leaf.content.mapText (label ++ ·) } :: rest
  | some label, kids => .text (markerLeaf label) :: kids

mutual

def numbered (own : Option String) : Node → Node
  | .element head children =>
    .element head (fronted own (numberedAll (label (.element head children)) children))
  | n => n

def numberedAll (labels : Nat → Option String) : List Node → List Node
  | [] => []
  | n :: rest => numbered (labels 0) n :: numberedAll (fun place => labels (place + 1)) rest

end

theorem numberedAll_eq_mapIdx (labels : Nat → Option String) (nodes : List Node) :
    numberedAll labels nodes = nodes.mapIdx fun place n => numbered (labels place) n := by
  induction nodes generalizing labels with
  | nil => rfl
  | cons n rest ih => rw [numberedAll, ih, List.mapIdx_cons]

def labelled (own : Option String) (n : Node) : Node := n.withChildren (fronted own n.children)

theorem marked_eq_labelled (marker : String) (item : Node) :
    marked marker item = labelled (some marker) item := by
  unfold marked labelled
  split
  · rename_i leaf rest given
    rw [given, fronted]
  · rename_i other
    rw [fronted]
    exact other

theorem labelled_none (n : Node) : labelled none n = n := n.withChildren_children

theorem isItem_of_label {list : Node} {place : Nat} (inside : place < list.children.length)
    (labels : (label list place).isSome = true) : isItem list.children[place] = true := by
  unfold label at labels
  split at labels
  · rename_i both
    rw [Bool.and_eq_true, List.getElem?_eq_getElem inside] at both
    exact both.2
  · cases labels

theorem label_of_other {n : Node} (other : isList n = false) (place : Nat) : label n place = none := by
  rw [label, other, Bool.false_and, if_neg Bool.false_ne_true]

theorem markItems_eq_mapIdx (ordered : Bool) (number : Nat) (nodes : List Node) :
    markItems ordered number nodes = nodes.mapIdx fun place n =>
      labelled (if (nodes[place]?).any isItem then
        some (marker ordered (number + (nodes.take (place + 1)).countP isItem)) else none) n := by
  fun_induction markItems ordered number nodes with
  | case1 => rfl
  | case2 number n rest item ih =>
    rw [List.mapIdx_cons, ih, marked_eq_labelled]
    simp [item, Nat.add_assoc, Nat.add_comm 1]
  | case3 number n rest other ih =>
    rw [List.mapIdx_cons, ih]
    simp [other, labelled_none]

theorem markListsIn_labelled {head : ElementHead} {children : List Node}
    (owned : own.isSome = true → isItem (.element head children) = true) :
    markListsIn (labelled own (.element head children)) =
      .element head (fronted own
        (children.mapIdx fun place n => labelled (label (.element head children) place) n)) := by
  have tag : isList (labelled own (.element head children)) = isList (.element head children) :=
    isList_withChildren _ _
  unfold markListsIn
  rw [tag]
  cases list : isList (.element head children) with
  | false =>
    have none : ∀ place, label (.element head children) place = .none := label_of_other list
    have alone : (children.mapIdx fun _ n => n) = children := List.ext_getElem (by simp) (by simp)
    simp only [none, labelled_none, alone]
    rfl
  | true =>
    cases own with
    | none =>
      rw [if_pos rfl, labelled_none, markList, markItems_eq_mapIdx]
      simp [label, list, fronted, Node.children, Node.withChildren]
    | some name =>
      rw [isList_of_isItem (owned rfl)] at list
      cases list

theorem leaf?_withChildren (n : Node) (kids : List Node) : (n.withChildren kids).leaf? = n.leaf? := by
  cases n <;> rfl

theorem markListsIn_refills (n : Node) : ∃ kids, markListsIn n = n.withChildren kids := n.refilled_if _ _

theorem leaf?_editWithin (levels : Nat) (n : Node) :
    (editWithin markListsIn levels n).1.leaf? = n.leaf? := by
  refine editWithin_view (fun n kids _ => ?_) levels n
  obtain ⟨old, same⟩ := markListsIn_refills n
  exact (leaf?_withChildren _ _).trans (by rw [same, leaf?_withChildren])

theorem fronted_of_other {n : Node} (other : n.leaf? = none) (name : String) (rest : List Node) :
    fronted (some name) (n :: rest) = .text (markerLeaf name) :: n :: rest := by
  cases n with
  | text leaf => cases other
  | _ => rfl

theorem eq_text_of_leaf? {n : Node} {leaf : TextLeaf} (some : n.leaf? = .some leaf) : n = .text leaf := by
  cases n with
  | text other => exact congrArg Node.text (Option.some.inj some)
  | _ => cases some

theorem map_fronted {f : Node → Node} (same : ∀ n, (f n).leaf? = n.leaf?) (own : Option String)
    (kids : List Node) : (fronted own kids).map f = fronted own (kids.map f) := by
  have texts : ∀ leaf, f (.text leaf) = .text leaf := fun leaf => eq_text_of_leaf? (same (.text leaf))
  cases own with
  | none => rfl
  | some name =>
    cases kids with
    | nil => simp [fronted, texts]
    | cons n rest =>
      cases first : n.leaf? with
      | some leaf =>
        rw [eq_text_of_leaf? first]
        simp [fronted, texts]
      | none =>
        rw [fronted_of_other first, List.map_cons, List.map_cons, texts,
          fronted_of_other ((same n).trans first)]

theorem mem_fronted {n : Node} (other : n.leaf? = none) (own : Option String) {kids : List Node}
    (member : n ∈ kids) : n ∈ fronted own kids := by
  fun_cases fronted own kids with
  | case1 => exact member
  | case2 name leaf rest =>
    rcases List.mem_cons.mp member with rfl | later
    · cases other
    · exact List.mem_cons_of_mem _ later
  | case3 => exact List.mem_cons_of_mem _ member

theorem editWithin_rigid {n : Node} (rigid : ∀ kids, n.withChildren kids = n) (levels : Nat) :
    (editWithin markListsIn levels n).1 = n := by
  obtain ⟨old, same⟩ := markListsIn_refills n
  cases levels with
  | zero => rfl
  | succ levels =>
    rw [editWithin_succ, same, rigid]
    exact rigid _

theorem editWithin_labelled {levels : Nat} {n : Node} (owned : own.isSome = true → isItem n = true)
    (done : (editWithin markListsIn levels (labelled own n)).2 = true) :
    (editWithin markListsIn levels (labelled own n)).1 = numbered own n := by
  induction levels generalizing own n with
  | zero => cases done
  | succ levels ih =>
    cases n with
    | element head children =>
      have each := (editWithin_done markListsIn levels _).mp done
      rw [editWithin_all each]
      rw [markListsIn_labelled owned] at each ⊢
      have below : ∀ place (inside : place < children.length),
          (editWithin markListsIn levels
              (labelled (label (.element head children) place) children[place])).1 =
            numbered (label (.element head children) place) children[place] := by
        intro place inside
        cases given : children[place].leaf? with
        | some leaf =>
          rw [eq_text_of_leaf? given]
          exact editWithin_rigid (fun _ => rfl) levels
        | none =>
          refine ih (fun labels => isItem_of_label inside labels) (each _ (mem_fronted ?_ own ?_))
          · exact (leaf?_withChildren _ _).trans given
          · exact List.mem_mapIdx.mpr ⟨place, inside, rfl⟩
      show Node.element head _ = .element head _
      refine congrArg (Node.element head) ?_
      show List.map _ (fronted own _) = _
      rw [map_fronted (leaf?_editWithin levels), numberedAll_eq_mapIdx]
      exact congrArg (fronted own) (List.ext_getElem (by simp) fun place _ inside => by
        simpa using below place (by simpa using inside))
    | _ => exact editWithin_rigid (fun _ => rfl) (levels + 1)

theorem numbered_of_done {n : Node} (done : (editAll markListsIn n).2 = true) :
    (editAll markListsIn n).1 = numbered none n := by
  have whole : (editWithin markListsIn (maxDepth + 1) (labelled none n)).1 = numbered none n :=
    editWithin_labelled (fun labels => by cases labels) (by rwa [labelled_none])
  rwa [labelled_none] at whole

-- Where marking lists comes to an end, every item of a list has its label, and that is all that has
-- changed.
theorem markLists_numbered {ctx after : Context κ σ}
    (returns : (markLists : Action κ σ Unit).exec ctx = (.ok (), after)) :
    after = { ctx with root := numbered none ctx.root } := by
  have ran : (Action.editNodes markListsIn : Action κ σ Unit).exec ctx = (.ok (), after) := returns
  obtain ⟨done, rfl⟩ := Action.editNodes_ok ran
  rw [numbered_of_done done]

def viewFrom (tag : String) (children : List Node) : Node :=
  .element ⟨.text "view", .null, .null, .absent, .record [("source_tag", .text tag)]⟩ children

def holding (root : Node) : Context Empty Unit := { begun (.node .root []) with root := root }

def nestedLists : Node :=
  viewFrom "ul" [
    viewFrom "li" [.text (Node.unmarked "a"), viewFrom "ol" [
      viewFrom "li" [], viewFrom "p" [], viewFrom "li" [.text (Node.unmarked "b")]]],
    viewFrom "li" []]

theorem nestedLists_labelled :
    (markLists : Action Empty Unit Unit).exec (holding nestedLists) =
      (.ok (), holding (viewFrom "ul" [
        viewFrom "li" [.text (Node.unmarked "• a"), viewFrom "ol" [
          viewFrom "li" [.text (markerLeaf "1. ")], viewFrom "p" [],
          viewFrom "li" [.text (Node.unmarked "2. b")]]],
        viewFrom "li" [.text (markerLeaf "• ")]])) := by
  obtain ⟨after, ran⟩ : ∃ after,
      (markLists : Action Empty Unit Unit).exec (holding nestedLists) = (.ok (), after) := ⟨_, rfl⟩
  rw [ran, markLists_numbered ran]
  rfl

end Passes
end SemanticMarkup
