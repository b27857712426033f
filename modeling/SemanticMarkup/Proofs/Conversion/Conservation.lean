import SemanticMarkup.Proofs.Conversion.Texts

namespace SemanticMarkup
open Walk

namespace AstHead

-- Conversion goes on into roots, and into mapped tags that can hold something.
def isOpen (h : AstHead) : Bool :=
  match h.kind with
  | .root => true
  | .tag => (Tag.mapping? h.tagName).any fun m => !m.isVoid && !m.isLineBreak
  | _ => false

def mark? (h : AstHead) : Option String :=
  if h.isTag then Table.get? Tag.formatting h.tagName else none

def isStyling (h : AstHead) : Bool := h.isTag && h.mark?.isNone

def handedDown (h : AstHead) : Table Value :=
  ((Tag.mapping? h.tagName).map fun m => Style.inheritable m.defaultStyle).getD []

end AstHead

namespace Ast

mutual

-- What conversion comes to, in document order, each head after those above it, the top first.
def reached (above : List AstHead) : Ast → List (List AstHead × AstHead)
  | .node h children => (above, h) :: if h.isOpen then reachedAll (above ++ [h]) children else []

def reachedAll (above : List AstHead) : List Ast → List (List AstHead × AstHead)
  | [] => []
  | a :: rest => a.reached above ++ reachedAll above rest

end

theorem reachedAll_eq_flatMap (above : List AstHead) (trees : List Ast) :
    reachedAll above trees = trees.flatMap (reached above) := by
  induction trees with
  | nil => rw [reachedAll, List.flatMap_nil]
  | cons a rest ih => rw [reachedAll, List.flatMap_cons, ih]

def marksBelow (above : List AstHead) (mark : String) : Option Value :=
  if above.any fun h => h.mark? == some mark then some (.flag true) else none

-- The styles handed down from above, the inner ones over the outer ones.
def stylesBelow (mode : StyleMode) (above : List AstHead) : Table Value :=
  match mode with
  | .inline => (above.filter AstHead.isStyling).foldl (fun t h => Table.update t h.handedDown) []
  | .cssClass => []

def classesBelow (mode : StyleMode) (above : List AstHead) : List String :=
  match mode with
  | .inline => []
  | .cssClass =>
    ((above.filter AstHead.isStyling).filterMap fun h => Stylesheet.textClassName? h.tagName).eraseDups

def labelBelow (mode : StyleMode) (above : List AstHead) : TextLeaf.Label where
  marks := marksBelow above
  styles := if (stylesBelow mode above).isEmpty then .null else .record (stylesBelow mode above)
  classes :=
    if (classesBelow mode above).isEmpty then .null
    else .text (String.intercalate " " (classesBelow mode above))

def readOff (mode : StyleMode) (place : List AstHead × AstHead) : List (Char × TextLeaf.Label) :=
  if place.2.isText then
    (Text.visible place.2.dataText.toList).map fun c => (c, labelBelow mode place.1)
  else []

def labelled (mode : StyleMode) (a : Ast) : List (Char × TextLeaf.Label) :=
  (a.reached []).flatMap (readOff mode)

end Ast

namespace Passes
open Ast

def Meaning.isOpen : Meaning → Bool
  | .group | .formatting _ _ | .element _ => true
  | _ => false

theorem formatting_holds {name mark : String} {m : TagMapping}
    (formats : Table.get? Tag.formatting name = some mark) (mapped : Tag.mapping? name = some m) :
    m.isVoid = false := by
  have all : ∀ entry ∈ Tag.formatting, (Tag.mapping? entry.1).all (fun m => !m.isVoid) = true := by
    decide
  have one := all _ (Table.mem_of_get? formats)
  rw [mapped] at one
  simpa using one

theorem ofTag_isOpen (name : String) :
    (Meaning.ofTag name).isOpen = (Tag.mapping? name).any fun m => !m.isVoid && !m.isLineBreak := by
  have reads := ofTag_reads name
  generalize Meaning.ofTag name = sense at reads
  cases reads with
  | unmapped mapped => simp [mapped, Meaning.isOpen]
  | lineBreak mapped breaks => simp [mapped, breaks, Meaning.isOpen]
  | formatting mapped whole formats =>
    simp [mapped, whole, formatting_holds formats mapped, Meaning.isOpen]
  | void mapped whole plain void => simp [mapped, void, Meaning.isOpen]
  | element mapped whole plain holds => simp [mapped, whole, holds, Meaning.isOpen]

theorem meaning_isOpen (h : AstHead) : (meaning h).isOpen = h.isOpen := by
  unfold meaning AstHead.isOpen
  cases h.kind with
  | text =>
    simp only
    split <;> rfl
  | tag => exact ofTag_isOpen h.tagName
  | _ => rfl

theorem meaning_of_tag {h : AstHead} (tag : h.isTag = true) : meaning h = .ofTag h.tagName := by
  unfold AstHead.isTag at tag
  unfold meaning
  cases kind : h.kind with
  | tag => rfl
  | _ =>
    simp only [kind] at tag
    cases tag

def Inherited.through (i : Inherited) (mode : StyleMode) (h : AstHead) : Inherited :=
  match meaning h with
  | .formatting mark _ => i.withMark mark
  | .element m => i.within mode h.tagName m
  | _ => i

theorem Inherited.through_of_not_tag (i : Inherited) (mode : StyleMode) {h : AstHead}
    (plain : h.isTag = false) : i.through mode h = i := by
  unfold AstHead.isTag at plain
  unfold Inherited.through meaning
  cases kind : h.kind with
  | tag =>
    simp only [kind] at plain
    cases plain
  | text => cases h.blank || Text.isAllBlank h.dataText <;> rfl
  | _ => rfl

-- What has been handed down is what the heads above have to hand down.
structure Describes (mode : StyleMode) (above : List AstHead) (i : Inherited) : Prop where
  sound : Marks.Sound i.marks
  marks : ∀ mark, Table.get? i.marks mark = marksBelow above mark
  styles : i.styles = stylesBelow mode above
  classes : i.classes = classesBelow mode above

namespace Describes
variable {mode : StyleMode} {above : List AstHead} {i : Inherited} {h : AstHead}

theorem nothing (mode : StyleMode) : Describes mode [] .nothing := by
  cases mode <;> exact ⟨.nothing, fun _ => rfl, rfl, rfl⟩

theorem filter_plain (above : List AstHead) (plain : h.isStyling = false) :
    (above ++ [h]).filter AstHead.isStyling = above.filter AstHead.isStyling := by
  simp [List.filter_append, plain]

theorem beyond (told : Describes mode above i) (plain : h.isStyling = false) (marks : Table Value)
    (sound : Marks.Sound marks) (marked : ∀ mark, Table.get? marks mark = marksBelow (above ++ [h]) mark) :
    Describes mode (above ++ [h]) { i with marks := marks } := by
  refine ⟨sound, marked, ?_, ?_⟩
  · rw [told.styles]
    cases mode <;> simp only [stylesBelow, filter_plain above plain]
  · rw [told.classes]
    cases mode <;> simp only [classesBelow, filter_plain above plain]

theorem past (told : Describes mode above i) (plain : h.isTag = false) :
    Describes mode (above ++ [h]) i := by
  have unmarked : h.mark? = none := by simp [AstHead.mark?, plain]
  refine told.beyond (by simp [AstHead.isStyling, plain]) i.marks told.sound fun mark => ?_
  rw [told.marks mark]
  simp [marksBelow, unmarked]

theorem withMark (told : Describes mode above i) {mark : String} (formats : h.mark? = some mark) :
    Describes mode (above ++ [h]) (i.withMark mark) := by
  refine told.beyond (by simp [AstHead.isStyling, formats]) _ (told.sound.mark mark) fun other => ?_
  rw [Table.get?_set, told.marks other]
  by_cases same : other = mark
  · simp [marksBelow, formats, same]
  · simp [marksBelow, formats, same, Ne.symm same]

theorem eraseDups_concat (names : List String) (name : String) :
    (names ++ [name]).eraseDups =
      if names.eraseDups.contains name then names.eraseDups else names.eraseDups ++ [name] := by
  rw [List.eraseDups_append]
  by_cases known : name ∈ names
  · simp [List.removeAll, known]
  · simp [List.removeAll, known, List.eraseDups_cons]

theorem within (told : Describes mode above i) {m : TagMapping} (tag : h.isTag = true)
    (plain : h.mark? = none) (mapped : Tag.mapping? h.tagName = some m) :
    Describes mode (above ++ [h]) (i.within mode h.tagName m) := by
  have styling : h.isStyling = true := by simp [AstHead.isStyling, tag, plain]
  have filtered : (above ++ [h]).filter AstHead.isStyling = above.filter AstHead.isStyling ++ [h] := by
    simp [List.filter_append, styling]
  have marks : ∀ mark, Table.get? (i.within mode h.tagName m).marks mark =
      marksBelow (above ++ [h]) mark := by
    intro mark
    rw [Inherited.within_marks, told.marks mark]
    simp [marksBelow, plain]
  have sound : Marks.Sound (i.within mode h.tagName m).marks := by simpa using told.sound
  cases mode with
  | inline =>
    have down : h.handedDown = Style.inheritable m.defaultStyle := by simp [AstHead.handedDown, mapped]
    refine ⟨sound, marks, ?_, told.classes⟩
    simp only [Inherited.within, told.styles, stylesBelow, filtered, List.foldl_append, down,
      List.foldl_cons, List.foldl_nil]
  | cssClass =>
    have styles : (i.within .cssClass h.tagName m).styles = i.styles := by
      simp only [Inherited.within]
      split
      · rfl
      · split <;> rfl
    refine ⟨sound, marks, by rw [styles, told.styles]; rfl, ?_⟩
    simp only [Inherited.within, classesBelow, filtered, List.filterMap_append, List.filterMap_cons,
      List.filterMap_nil]
    have before := told.classes
    simp only [classesBelow] at before
    cases Stylesheet.textClassName? h.tagName with
    | none => simpa using before
    | some name =>
      simp only
      rw [eraseDups_concat, ← before]
      split <;> rfl

theorem through (told : Describes mode above i) (inner : h.isOpen = true) :
    Describes mode (above ++ [h]) (i.through mode h) := by
  cases tag : h.isTag with
  | false =>
    rw [i.through_of_not_tag mode tag]
    exact told.past tag
  | true =>
    have reads := ofTag_reads h.tagName
    rw [← meaning_isOpen, meaning_of_tag tag] at inner
    unfold Inherited.through
    rw [meaning_of_tag tag]
    generalize Meaning.ofTag h.tagName = sense at reads inner
    cases reads with
    | formatting mapped whole formats => exact told.withMark (by simp [AstHead.mark?, tag, formats])
    | element mapped whole plain holds =>
      exact told.within tag (by simp [AstHead.mark?, plain]) mapped
    | _ => cases inner

end Describes

def Honest (a : Ast) : Prop :=
  a.head.isText = true → a.head.blank = true → Text.isAllBlank a.head.dataText = true

theorem collectAll_becomesAll {β : Type} {f : TextLeaf → List β} {g : Ast → List β}
    {mode : StyleMode} {i : Inherited} {trees : List Ast}
    (each : ∀ c ∈ trees, Node.collectAll f (becomes mode i c) = g c) :
    Node.collectAll f (becomesAll mode i trees) = trees.flatMap g := by
  induction trees with
  | nil => rfl
  | cons c rest ih =>
    rw [becomesAll, Node.collectAll_append, each c (by simp), List.flatMap_cons,
      ih fun d member => each d (by simp [member])]

theorem label_leaf {mode : StyleMode} {above : List AstHead} {i : Inherited}
    (told : Describes mode above i) (content source : String) :
    (i.leaf content source).label = labelBelow mode above := by
  have marks : Marks.held (i.leaf content source).marks = marksBelow above := by
    funext mark
    exact (Marks.held_unlessEmpty i.marks mark).trans (told.marks mark)
  rw [TextLeaf.label, marks, labelBelow, ← told.styles, ← told.classes]
  rfl

theorem readOff_eq (mode : StyleMode) (above : List AstHead) {h : AstHead} {children : List Ast}
    (honest : Honest (.node h children)) :
    readOff mode (above, h) =
      match meaning h with
      | .words data => (Text.visible data.toList).map fun c => (c, labelBelow mode above)
      | _ => [] := by
  cases text : h.isText with
  | true =>
    rw [meaning_of_text text, readOff, if_pos text]
    cases blank : h.blank || Text.isAllBlank h.dataText with
    | true =>
      have empty : Text.isAllBlank h.dataText = true := by
        rcases (Bool.or_eq_true _ _).mp blank with flagged | empty
        · exact honest text flagged
        · exact empty
      rw [Text.visible_of_blank empty]
      rfl
    | false => rfl
  | false =>
    rw [readOff, if_neg (by simp [text])]
    cases sense : meaning h with
    | words data =>
      rw [(meaning_words sense).1] at text
      cases text
    | _ => rfl

theorem becomes_labelled (mode : StyleMode) (a : Ast) (above : List AstHead) (i : Inherited)
    (told : Describes mode above i) (honest : Everywhere Honest a) :
    Node.collectAll TextLeaf.labelled (becomes mode i a) =
      (a.reached above).flatMap (readOff mode) := by
  induction a using Ast.induct generalizing above i with
  | node h children ih =>
    have inner : h.isOpen = true →
        Node.collectAll TextLeaf.labelled (becomesAll mode (i.through mode h) children) =
          (reachedAll (above ++ [h]) children).flatMap (readOff mode) := by
      intro opens
      rw [reachedAll_eq_flatMap, List.flatMap_assoc]
      refine collectAll_becomesAll fun c member => ?_
      exact ih c member _ _ (told.through opens) (honest.inside c member)
    rw [becomes_node, reached, List.flatMap_cons, readOff_eq mode above honest.here,
      ← meaning_isOpen h]
    rw [← meaning_isOpen h] at inner
    unfold Inherited.through at inner
    cases sense : meaning h with
    | nothing => rfl
    | words data =>
      simp only [Node.collectAll, Node.collect, TextLeaf.labelled, label_leaf told]
      rfl
    | group =>
      rw [sense] at inner
      exact inner rfl
    | lineBreak =>
      have unseen : (i.leaf "\n" "br").labelled = [] := by
        rw [TextLeaf.labelled, Inherited.chars_leaf, Text.visible_of_blank (by decide), List.map_nil]
      simp [Node.collectAll, Node.collect, unseen, Meaning.isOpen]
    | formatting mark m =>
      rw [sense] at inner
      have alike : Node.Alike (becomesAll mode (i.withMark mark) children) :=
        ⟨_, _, becomesAll_under mode children (told.sound.mark mark)⟩
      have kept := (Node.merged_labelled alike).trans (inner rfl)
      simp only
      rcases formatted_cases mode h m (becomesAll mode (i.withMark mark) children) with plain | wrapped
      · rw [plain]
        exact kept
      · rw [wrapped]
        simpa [Node.collectAll, Node.collect, Meaning.isOpen] using kept
    | void m => rfl
    | element m =>
      rw [sense] at inner
      simpa [Node.collectAll, Node.collect, Meaning.isOpen] using inner rfl

-- The merged tree of converted markup holds just the visible characters of the markup that is not
-- dropped, in order, under the marks, styles and classes that the tags above each one give.
theorem nodesOf_labelled (mode : StyleMode) (a : Ast) (top : a.head.kind = .root)
    (honest : Everywhere Honest a) (nodes : List Node) (converted : nodesOf mode a = .ok nodes) :
    (Node.mergeAll (Node.root.withChildren nodes)).2 = true ∧
      (Node.mergeAll (Node.root.withChildren nodes)).1.collect TextLeaf.labelled =
        a.labelled mode := by
  obtain ⟨same, inside⟩ := nodesOf_ok top converted
  refine ⟨(Node.mergeAll_done inside).1, ?_⟩
  subst same
  rw [Node.mergeAll_labelled (root_alike mode a), labelled,
    ← becomes_labelled mode a [] .nothing (.nothing mode) honest]
  rfl

def boldLines : Ast :=
  .node .root [.node (.tag "p" []) [
    .node (.tag "b" []) [.node (.text "x ") [], .node (.tag "br" []) []],
    .node (.tag "strong" []) [.node (.text "y") []]]]

theorem boldLines_labelled :
    ∃ nodes, nodesOf .inline boldLines = .ok nodes ∧
      (Node.mergeAll (Node.root.withChildren nodes)).1.collect TextLeaf.labelled =
        boldLines.labelled .inline ∧
      (boldLines.labelled .inline).map Prod.fst = ['x', 'y'] := by
  have honest : Everywhere Honest boldLines := by
    simp [boldLines, everywhere_node, Honest, Ast.head, AstHead.root, AstHead.tag, AstHead.text]
  exact ⟨_, rfl, (nodesOf_labelled .inline boldLines rfl honest _ rfl).2, by decide⟩

end Passes
end SemanticMarkup
