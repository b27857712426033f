import SemanticMarkup.Proofs.Props.Heads
import SemanticMarkup.Proofs.Props.Styling

namespace SemanticMarkup
open Walk Passes Node

def Tag.defaultStyle (tag : String) : Table Value :=
  ((Tag.mapping? tag).map TagMapping.defaultStyle).getD []

namespace Passes

-- What the style property of an element has to be, given what its style attribute adds.
def styleProp (mode : StyleMode) (tag : String) (added : Table Value) : Option Value :=
  match mode with
  | .inline => some (.record (Table.update (Tag.defaultStyle tag) added))
  | .cssClass => if added.isEmpty then none else some (.record added)

-- The class that stands for the default style of a tag, if the name is spelled as the table has it.
def generatedClasses (mode : StyleMode) (tag : String) : List String :=
  match mode with
  | .inline => []
  | .cssClass => if Tag.Spelled tag ∧ Tag.defaultStyle tag ≠ [] then ["mkn-" ++ tag] else []

def classProp (classes : List String) : Option Value :=
  if classes.isEmpty then none else some (.text (String.intercalate " " classes))

def propOf (mode : StyleMode) (removeStyle removeClass : Bool) (tag : String) (attributes : Table Value)
    (key : String) : Option Value :=
  if key = "style" then styleProp mode tag (if removeStyle then [] else attributeStyle attributes)
  else if key = "className" then
    classProp (generatedClasses mode tag ++ if removeClass then [] else classesOf attributes)
  else none

theorem intercalate_ne_empty {names : List String} (filled : ∀ name ∈ names, name ≠ "")
    (some : names ≠ []) : String.intercalate " " names ≠ "" := by
  cases names with
  | nil => exact absurd rfl some
  | cons name rest =>
    have first : name ≠ "" := filled name List.mem_cons_self
    by_cases last : rest = []
    · rwa [last, String.intercalate_singleton]
    · rw [String.intercalate_cons_of_ne_nil last]
      simp [first]

theorem classesOf_filled (attributes : Table Value) : ∀ name ∈ classesOf attributes, name ≠ "" := by
  intro name member
  obtain ⟨word, among, rfl⟩ := List.mem_map.mp member
  have seen := (List.mem_filter.mp among).2
  simpa using seen

theorem joined_words (pieces : List (List Char)) :
    String.ofList (Text.joined [' '] pieces) = String.intercalate " " (pieces.map String.ofList) := by
  induction pieces with
  | nil => rfl
  | cons piece rest ih =>
    cases rest with
    | nil => simp [Text.joined]
    | cons next more =>
      have apart : (next :: more).map String.ofList ≠ [] := by simp
      show String.ofList (piece ++ [' '] ++ Text.joined [' '] (next :: more)) =
        String.intercalate " " (String.ofList piece :: (next :: more).map String.ofList)
      rw [String.ofList_append, String.ofList_append, ih, String.intercalate_cons_of_ne_nil apart]

theorem attributeClasses_eq (attributes : Table Value) :
    attributeClasses attributes = String.intercalate " " (classesOf attributes) := joined_words _

section Adding
variable {attributes props : Table Value}

theorem get?_addStyle (attributes props : Table Value) (key : String) :
    Table.get? (addStyle attributes props) key =
      if key = "style" ∧ attributeStyle attributes ≠ [] then
        some (.record (Table.update (styleOf props) (attributeStyle attributes)))
      else Table.get? props key := by
  unfold addStyle
  dsimp only
  split
  · rename_i none
    simp [List.isEmpty_iff.mp none]
  · rename_i some
    rw [Table.get?_set]
    simp [show attributeStyle attributes ≠ [] by simpa using some]

theorem get?_addClasses {names : List String} (filled : ∀ name ∈ names, name ≠ "")
    (there : Table.get? props "className" = classProp names) (key : String) :
    Table.get? (addClasses attributes props) key =
      if key = "className" then classProp (names ++ classesOf attributes) else Table.get? props key := by
  unfold addClasses
  dsimp only
  rw [attributeClasses_eq]
  by_cases none : classesOf attributes = []
  · rw [none, if_pos String.intercalate_nil, List.append_nil, ← there]
    split <;> simp_all
  · rw [if_neg (intercalate_ne_empty (classesOf_filled attributes) none), Table.get?_set]
    by_cases here : key = "className"
    · rw [if_pos here, if_pos here, Table.getD, there, classProp, classProp]
      by_cases first : names = []
      · subst first
        simp [Value.isTrue, none]
      · have known := intercalate_ne_empty filled first
        simp [Value.isTrue, Value.shown, first, known, none, String.intercalate_append_of_ne_nil]
    · rw [if_neg here, if_neg here]

end Adding

theorem className_eq {tag : String} {m : TagMapping} (mapped : Tag.mapping? tag = some m) :
    Stylesheet.className? tag =
      if Tag.Spelled tag ∧ Tag.defaultStyle tag ≠ [] then some ("mkn-" ++ tag) else none := by
  have style : Tag.defaultStyle tag = m.defaultStyle := by
    rw [Tag.defaultStyle, mapped]
    rfl
  rw [style]
  cases named : Tag.named? tag with
  | none =>
    have other : ¬Tag.Spelled tag := by
      intro spelled
      rw [Tag.named_of_spelled spelled mapped] at named
      cases named
    rw [Stylesheet.className?, named, if_neg (fun both => other both.1)]
    rfl
  | some known =>
    have same : known = m := Option.some.inj ((Tag.mapping_of_named named).symm.trans mapped)
    subst same
    rw [Stylesheet.className_of_named named]
    have spelled := (Tag.spelled_of_named named).1
    by_cases none : known.defaultStyle = [] <;> simp [spelled, none]

theorem get?_props {tag : String} {m : TagMapping} (mapped : Tag.mapping? tag = some m)
    (mode : StyleMode) (key : String) :
    Table.get? (props mode tag m) key = propOf mode true true tag [] key := by
  have style : Tag.defaultStyle tag = m.defaultStyle := by
    rw [Tag.defaultStyle, mapped]
    rfl
  unfold propOf styleProp generatedClasses classProp props
  cases mode with
  | inline =>
    simp only [Table.get?_cons, style]
    by_cases here : key = "style" <;> simp [here]
  | cssClass =>
    simp only [className_eq mapped]
    by_cases classed : Tag.Spelled tag ∧ Tag.defaultStyle tag ≠ []
    · simp only [if_pos classed, Table.get?_cons]
      by_cases here : key = "style"
      · simp [here]
      · simp [here]
    · simp only [if_neg classed]
      simp

theorem keys_props (mode : StyleMode) (tag : String) (m : TagMapping) :
    (Table.keys (props mode tag m)).Nodup := by
  unfold props
  cases mode with
  | inline => exact List.nodup_singleton _
  | cssClass =>
    dsimp only
    cases Stylesheet.className? tag with
    | none => exact List.nodup_nil
    | some name => exact List.nodup_singleton _

theorem keys_addStyle {props : Table Value} (once : (Table.keys props).Nodup) (attributes : Table Value) :
    (Table.keys (addStyle attributes props)).Nodup := by
  unfold addStyle
  dsimp only
  split
  · exact once
  · exact Table.keys_set_nodup once _ _

theorem keys_addClasses {props : Table Value} (once : (Table.keys props).Nodup)
    (attributes : Table Value) : (Table.keys (addClasses attributes props)).Nodup := by
  unfold addClasses
  dsimp only
  split
  · exact once
  · exact Table.keys_set_nodup once _ _

section Merging
variable {tag : String} {m : TagMapping}

theorem generatedClasses_filled (mode : StyleMode) (tag : String) :
    ∀ name ∈ generatedClasses mode tag, name ≠ "" := by
  unfold generatedClasses
  cases mode with
  | inline => simp
  | cssClass =>
    dsimp only
    split <;> simp

theorem get?_styled (mapped : Tag.mapping? tag = some m) (mode : StyleMode) (removeStyle : Bool)
    (attributes : Table Value) (key : String) :
    Table.get? (if removeStyle then props mode tag m else addStyle attributes (props mode tag m)) key =
      propOf mode removeStyle true tag attributes key := by
  have plain := get?_props mapped mode
  cases removeStyle with
  | true => exact plain key
  | false =>
    rw [if_neg (by decide), get?_addStyle]
    by_cases here : key = "style"
    · subst here
      have there : styleOf (props mode tag m) = ((styleProp mode tag []).getD .null).entries := by
        rw [styleOf, Table.getD, plain]
        rfl
      by_cases none : attributeStyle attributes = []
      · rw [if_neg (by simp [none]), plain, propOf, propOf, none]
        rfl
      · rw [if_pos ⟨rfl, none⟩, there, propOf, if_pos rfl]
        cases mode with
        | inline => rfl
        | cssClass =>
          have added : styleProp .cssClass tag (attributeStyle attributes) =
              some (.record (attributeStyle attributes)) := if_neg (by simpa using none)
          show some (Value.record (Table.update [] (attributeStyle attributes))) =
            styleProp .cssClass tag (attributeStyle attributes)
          rw [Table.update_empty (attributeStyle_once attributes), added]
    · rw [if_neg (by simp [here]), plain, propOf, propOf, if_neg here, if_neg here]
      rfl

theorem get?_merged (mapped : Tag.mapping? tag = some m) (mode : StyleMode)
    (removeStyle removeClass : Bool) (attributes : Table Value) (key : String) :
    let styled := if removeStyle then props mode tag m else addStyle attributes (props mode tag m)
    Table.get? (if removeClass then styled else addClasses attributes styled) key =
      propOf mode removeStyle removeClass tag attributes key := by
  have styled := get?_styled mapped mode removeStyle attributes
  dsimp only
  cases removeClass with
  | true => exact styled key
  | false =>
    have there : Table.get?
        (if removeStyle then props mode tag m else addStyle attributes (props mode tag m)) "className" =
          classProp (generatedClasses mode tag) := by
      rw [styled, propOf, if_neg (by decide), if_pos rfl, if_pos rfl, List.append_nil]
    rw [if_neg (by decide), get?_addClasses (generatedClasses_filled mode tag) there, styled]
    unfold propOf
    by_cases style : key = "style"
    · subst style
      rfl
    · rw [if_neg style, if_neg style]
      by_cases classes : key = "className"
      · rw [if_pos classes, if_pos classes]
        rfl
      · rw [if_neg classes, if_neg classes, if_neg classes]

theorem keys_merged (mode : StyleMode) (removeStyle removeClass : Bool) (tag : String) (m : TagMapping)
    (attributes : Table Value) :
    let styled := if removeStyle then props mode tag m else addStyle attributes (props mode tag m)
    (Table.keys (if removeClass then styled else addClasses attributes styled)).Nodup := by
  have plain := keys_props mode tag m
  dsimp only
  have styled : (Table.keys
      (if removeStyle then props mode tag m else addStyle attributes (props mode tag m))).Nodup := by
    split
    · exact plain
    · exact keys_addStyle plain attributes
  split
  · exact styled
  · exact keys_addClasses styled attributes

end Merging

-- An element that says where it is from and, unless it is from an image tag, has just the properties
-- that follow from that.
def Determined (mode : StyleMode) (removeStyle removeClass : Bool) (head : ElementHead) : Prop :=
  ∃ tag attributes,
    head.annotations = .record [("source_tag", .text tag), ("source_attrs", .record attributes)] ∧
    (tag ≠ Tag.image → ∃ props, head.props = .record props ∧ (Table.keys props).Nodup ∧
      ∀ key, Table.get? props key = propOf mode removeStyle removeClass tag attributes key)

theorem determined_of_made {K : AstHead → Prop} {mode : StyleMode} {removeStyle removeClass : Bool}
    {made : ElementHead} (of : MadeOf K mode [.style removeStyle removeClass, .layout, .media] made) :
    Determined mode removeStyle removeClass made := by
  obtain ⟨old, ⟨h, m, target, _, mapped, rfl⟩, rfl⟩ := of
  refine ⟨h.tagName, h.attributes, ?_, fun other => ?_⟩
  · rw [annotations_dressed]
    rfl
  · have source : (dressed [.style removeStyle removeClass, .layout]
        (head mode h m target)).origin.isText Tag.image ≠ true := by
      rw [origin_dressed]
      simpa [Value.isText, Value.text?] using other
    have left : dressed [.style removeStyle removeClass, .layout, .media] (head mode h m target) =
        dressed [.style removeStyle removeClass, .layout] (head mode h m target) := if_neg source
    rw [left]
    refine ⟨_, ?_, keys_merged mode removeStyle removeClass h.tagName m h.attributes,
      get?_merged mapped mode removeStyle removeClass h.attributes⟩
    show Value.record _ = _
    rw [attributes_head]

end Passes

namespace Transformer
variable {ε σ : Type}

-- The properties of every element that a transform gives are a function of its tag, its attributes and
-- the options, unless it is from an image tag.
theorem props_determined (t : Transformer ε σ) (unchanged : t.plugins = builtin) {a : Ast}
    (source : String) (shared : σ) {nodes : List Node}
    (fine : (t.complete.exec (t.start a source shared)).1 = .ok nodes) :
    ∀ n ∈ nodes, Everywhere (OfHead (Determined t.options.styleMode t.options.removeAllStyle.isTrue
      t.options.removeAllClass.isTrue)) n := by
  have offers := offers_builtin (t.start a source shared).toSetting
  rw [dressers, (Stage.start t source shared a).styleHandler] at offers
  have made := result_headOf (K := fun _ => True) (fun phase _ => by rw [unchanged])
    (by rw [unchanged]; exact offers) (fun _ _ => trivial) (everywhere_of_each (fun _ => trivial) a) fine
  exact fun n member => (made n member).imp fun m here head given => determined_of_made (here head given)

def card (name : String) : Ast :=
  .node .root [.node (.tag name [("class", "a  b"), ("style", "color: red")]) [.node (.text "x") []]]

def classing : Transformer Empty Unit :=
  { usual with options :=
    { usual.options with styleMode := .cssClass, removeAllClass := .flag false, validate := .flag false } }

theorem card_within (name : String) : Within maxDepth (card name) := by
  have shallow : Within 2 (card name) := by
    simp [card, Within, Branching.children, Ast.children]
  exact shallow.mono (by decide)

theorem card_determined :
    classing.plugins = builtin ∧
      ∃ nodes, (classing.complete.exec (classing.start (card "p") "" ())).1 = .ok nodes ∧
        nodes.map (fun n => n.head?.map fun head => head.className.text?) = [some (some "mkn-p a b")] ∧
        ∀ n ∈ nodes, Everywhere (OfHead (Determined .cssClass false false)) n := by
  have ran := complete_of_within classing usual_plugins (card_within "p") "" ()
  have told : (classing.grown "" (classing.converted (card "p")) >>= classing.delivered).map
      (fun nodes => nodes.map fun n => n.head?.map fun head => head.className.text?) =
        .ok [some (some "mkn-p a b")] := rfl
  obtain ⟨nodes, fine, same⟩ := ok_of_map told
  rw [← ran] at fine
  exact ⟨usual_plugins, nodes, fine, same, props_determined classing usual_plugins "" () fine⟩

theorem blankedCard_unclassed :
    classing.plugins = builtin ∧ (card "div\u00a0").head.kind = .root ∧
      String.ofList (Text.lower "div\u00a0".toList) = "div\u00a0" ∧
      Tag.defaultStyle "div\u00a0" = Tag.defaultStyle "div" ∧ Tag.defaultStyle "div" ≠ [] ∧
      ∃ nodes, (classing.complete.exec (classing.start (card "div\u00a0") "" ())).1 = .ok nodes ∧
        nodes.map (fun n => n.sourceTag.text?) = [some "div\u00a0"] ∧
        nodes.map (fun n => n.head?.map fun head => head.className.text?) = [some (some "a b")] := by
  have ran := complete_of_within classing usual_plugins (card_within "div\u00a0") "" ()
  have told : (classing.grown "" (classing.converted (card "div\u00a0")) >>= classing.delivered).map
      (fun nodes => (nodes.map fun n => n.sourceTag.text?,
        nodes.map fun n => n.head?.map fun head => head.className.text?)) =
        .ok ([some "div\u00a0"], [some (some "a b")]) := rfl
  obtain ⟨nodes, fine, same⟩ := ok_of_map told
  obtain ⟨source, classes⟩ := Prod.mk.inj same
  rw [← ran] at fine
  exact ⟨usual_plugins, rfl, by decide, rfl, List.cons_ne_nil _ _, nodes, fine, source, classes⟩

end Transformer
end SemanticMarkup
