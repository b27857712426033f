import Mathlib.Data.List.Induction
import SemanticMarkup.Proofs.Conversion.Conservation
import SemanticMarkup.Proofs.Likeness.Modes

namespace SemanticMarkup
open Walk Passes Node

namespace Table
variable {α : Type}

def overlaid (layers : List (Table α)) : Table α := layers.foldl update []

-- The last of the layers that has the key gives the value.
def nearest (layers : List (Table α)) (key : String) : Option α :=
  layers.reverse.findSome? fun layer => get? layer key

theorem get?_overlaid {layers : List (Table α)} (once : ∀ layer ∈ layers, (keys layer).Nodup)
    (key : String) : get? (overlaid layers) key = nearest layers key := by
  induction layers using List.reverseRecOn with
  | nil => rfl
  | append_singleton layers layer ih =>
    have below := ih fun other member => once other (by simp [member])
    rw [overlaid] at below
    rw [overlaid, nearest, List.foldl_append, List.foldl_cons, List.foldl_nil,
      get?_update _ _ (once layer (by simp)), below, List.reverse_append, List.reverse_singleton,
      List.singleton_append, List.findSome?_cons]
    cases get? layer key <;> rfl

end Table

namespace Stylesheet

def textStyle (name : String) : Table Value :=
  ((textRules.find? fun rule => rule.className == name).map Rule.style).getD []

def classNames (classes : Value) : List String :=
  (Text.words ((classes.text?).getD "").toList).map String.ofList

-- What the rules of the named classes declare together, the later classes over the earlier ones.
def declared (classes : Value) : Table Value := Table.overlaid ((classNames classes).map textStyle)

end Stylesheet

namespace Style

theorem keys_picked_sublist (style : Table Value) (names : List String) :
    (Table.keys (names.filterMap fun key =>
      match Table.get? style key with
      | none => none
      | some .null => none
      | some value => some (key, value))).Sublist names := by
  induction names with
  | nil => exact .slnil
  | cons name rest ih =>
    rw [List.filterMap_cons]
    split
    · exact ih.cons name
    · rename_i entry picked
      have same : entry.1 = name := by
        split at picked <;> cases picked
        rfl
      rw [Table.keys, List.map_cons, same]
      exact ih.cons_cons name

theorem inheritable_once (style : Table Value) : (Table.keys (inheritable style)).Nodup :=
  (keys_picked_sublist style inherited).nodup (by decide)

end Style

namespace Stylesheet

theorem textRules_once : (textRules.map Rule.className).Nodup := by decide +kernel

theorem textStyle_of_mem {rule : Rule} (member : rule ∈ textRules) :
    textStyle rule.className = rule.style := by
  have found : textRules.find? (fun other => other.className == rule.className) = some rule := by
    cases first : textRules.find? fun other => other.className == rule.className with
    | none =>
      have nothing := List.find?_eq_none.mp first rule member
      simp at nothing
    | some other =>
      have same : other.className = rule.className := by simpa using List.find?_some first
      exact congrArg some
        (List.inj_on_of_nodup_map textRules_once (List.mem_of_find?_eq_some first) member same)
  rw [textStyle, found]
  rfl

theorem textStyle_of_named {tag name : String} {m : TagMapping} (named : Tag.named? tag = some m)
    (given : textClassName? tag = some name) : textStyle name = Style.inheritable m.defaultStyle :=
  @textStyle_of_mem ⟨name, Style.inheritable m.defaultStyle⟩
    (List.mem_filterMap.mpr ⟨(tag, m), Table.mem_of_get? named, by rw [given]; rfl⟩)

theorem textStyle_once (name : String) : (Table.keys (textStyle name)).Nodup := by
  cases found : textRules.find? fun rule => rule.className == name with
  | none =>
    rw [textStyle, found]
    exact List.nodup_nil
  | some rule =>
    obtain ⟨entry, _, made⟩ := List.mem_filterMap.mp (List.mem_of_find?_eq_some found)
    obtain ⟨_, _, rfl⟩ := Option.map_eq_some_iff.mp made
    rw [textStyle, found]
    exact Style.inheritable_once _

theorem textClassName_ne_empty {tag name : String} (given : textClassName? tag = some name) :
    name ≠ "" := by
  rintro rfl
  have some : ((Table.keys Tag.mappings).filterMap textClassName?).all (· != "") = true := by
    decide +kernel
  cases named : Tag.named? tag with
  | none =>
    rw [textClassName?, named] at given
    cases given
  | some m =>
    have key : tag ∈ Table.keys Tag.mappings :=
      List.mem_map_of_mem (f := Prod.fst) (Table.mem_of_get? named)
    have one := List.all_eq_true.mp some "" (List.mem_filterMap.mpr ⟨tag, key, given⟩)
    simp at one

end Stylesheet

namespace Ast

-- The heads above a text that hand styles down, the outermost first, and the classes they have.
def layersAbove (above : List AstHead) : List (Table Value) :=
  (above.filter AstHead.isStyling).map AstHead.handedDown

def classesAbove (above : List AstHead) : List String :=
  (above.filter AstHead.isStyling).filterMap fun h => Stylesheet.textClassName? h.tagName

theorem stylesBelow_inline (above : List AstHead) :
    stylesBelow .inline above = Table.overlaid (layersAbove above) := by
  rw [stylesBelow, Table.overlaid, layersAbove, List.foldl_map]

theorem classesBelow_cssClass (above : List AstHead) :
    classesBelow .cssClass above = (classesAbove above).eraseDups := rfl

end Ast

theorem AstHead.handedDown_once (h : AstHead) : (Table.keys h.handedDown).Nodup := by
  unfold AstHead.handedDown
  cases Tag.mapping? h.tagName with
  | none => exact List.nodup_nil
  | some m => exact Style.inheritable_once _

theorem eraseDups_of_nodup {names : List String} (once : names.Nodup) :
    names.eraseDups = names := by
  induction names with
  | nil => rfl
  | cons name rest ih =>
    obtain ⟨fresh, others⟩ := List.nodup_cons.mp once
    have kept : (rest.filter fun other => !other == name) = rest := by
      refine List.filter_eq_self.mpr fun other member => ?_
      simpa using fun same : other = name => fresh (same ▸ member)
    rw [List.eraseDups_cons, kept, ih others]

namespace Passes
open Ast

theorem handedDown_of_classless {h : AstHead} (spelled : Tag.Spelled h.tagName)
    (none : Stylesheet.textClassName? h.tagName = none) : h.handedDown = [] := by
  unfold AstHead.handedDown
  cases mapped : Tag.mapping? h.tagName with
  | none => rfl
  | some m => exact inheritable_of_textClassless spelled mapped none

theorem textStyle_handedDown {h : AstHead} {name : String}
    (given : Stylesheet.textClassName? h.tagName = some name) :
    Stylesheet.textStyle name = h.handedDown := by
  cases named : Tag.named? h.tagName with
  | none =>
    rw [Stylesheet.textClassName?, named] at given
    cases given
  | some m =>
    rw [Stylesheet.textStyle_of_named named given, AstHead.handedDown, Tag.mapping_of_named named]
    rfl

theorem overlaid_classesAbove {above : List AstHead}
    (spelled : ∀ h ∈ above, h.isStyling = true → Tag.Spelled h.tagName) :
    Table.overlaid ((classesAbove above).map Stylesheet.textStyle) =
      Table.overlaid (layersAbove above) := by
  have known : ∀ h ∈ above.filter AstHead.isStyling, Tag.Spelled h.tagName := by
    intro h member
    obtain ⟨inside, styling⟩ := List.mem_filter.mp member
    exact spelled h inside styling
  unfold Table.overlaid classesAbove layersAbove
  generalize above.filter AstHead.isStyling = heads at known
  generalize ([] : Table Value) = t
  induction heads generalizing t with
  | nil => rfl
  | cons h rest ih =>
    have others := ih fun other member => known other (List.mem_cons_of_mem _ member)
    rw [List.map_cons, List.foldl_cons]
    cases given : Stylesheet.textClassName? h.tagName with
    | none =>
      simp only [List.filterMap_cons, given]
      rw [handedDown_of_classless (known h List.mem_cons_self) given]
      exact others t
    | some name =>
      simp only [List.filterMap_cons, given, List.map_cons, List.foldl_cons]
      rw [textStyle_handedDown given]
      exact others _

-- How a text is styled in the two modes, from the heads above it. Inline, the nearest head that
-- hands down a property gives it. A class that comes again further in keeps its first place, so
-- the classes give what is nearest when each head is taken where its class came first.
structure Layered (above : List AstHead) (l m : TextLeaf) : Prop where
  same : TextLeaf.SameUnstyled l m
  inline : ∀ key, Marks.held l.styles key = Table.nearest (layersAbove above) key
  named : Stylesheet.classNames m.classes = (classesAbove above).eraseDups
  cssClass : ∀ key, Table.get? (Stylesheet.declared m.classes) key =
    Table.nearest ((classesAbove above).eraseDups.map Stylesheet.textStyle) key
  agree : (∀ h ∈ above, h.isStyling = true → Tag.Spelled h.tagName) → (classesAbove above).Nodup →
    l.styles = Inherited.unlessEmpty (Stylesheet.declared m.classes)

def layered (a : Ast) : Likeness where
  heads := ElementHead.SameUnstyled
  leaves l m := ∃ place ∈ a.reached [], Layered place.1 l m
  role same := same.role
  origin same := same.origin
  content := fun ⟨_, _, fact⟩ => fact.same.content
  marks := fun ⟨_, _, fact⟩ => fact.same.marks
  annotations := fun ⟨_, _, fact⟩ => fact.same.annotations
  refilled := fun ⟨place, member, fact⟩ _ _ => ⟨place, member,
    { same := ⟨rfl, fact.same.marks, rfl⟩
      inline := fact.inline
      named := fact.named
      cssClass := fact.cssClass
      agree := fact.agree }⟩
  marker _ := by
    cases a with
    | node h children =>
      exact ⟨([], h), by simp [reached], ⟨rfl, rfl, rfl⟩, fun _ => rfl, rfl, fun _ => rfl,
        fun _ _ => rfl⟩

theorem get?_stylesBelow (above : List AstHead) (key : String) :
    Table.get? (stylesBelow .inline above) key = Table.nearest (layersAbove above) key := by
  have once : ∀ layer ∈ layersAbove above, (Table.keys layer).Nodup := by
    intro layer member
    obtain ⟨h, _, rfl⟩ := List.mem_map.mp member
    exact h.handedDown_once
  rw [stylesBelow_inline, Table.get?_overlaid once]

theorem get?_declared (classes : Value) (key : String) :
    Table.get? (Stylesheet.declared classes) key =
      Table.nearest ((Stylesheet.classNames classes).map Stylesheet.textStyle) key := by
  refine Table.get?_overlaid (fun layer member => ?_) key
  obtain ⟨name, _, rfl⟩ := List.mem_map.mp member
  exact Stylesheet.textStyle_once name

theorem classNames_leaf (i : Inherited) (content source : String)
    (solid : ∀ name ∈ i.classes, name ≠ "" ∧ ∀ c ∈ name.toList, Text.isBlank c = false) :
    Stylesheet.classNames (i.leaf content source).classes = i.classes := by
  have classes : (i.leaf content source).classes =
      if i.classes.isEmpty then .null else .text (String.intercalate " " i.classes) := rfl
  rw [classes]
  cases none : i.classes.isEmpty with
  | true =>
    rw [List.isEmpty_iff.mp none]
    rfl
  | false => exact Text.words_intercalate solid

theorem classesBelow_solid (above : List AstHead) :
    ∀ name ∈ classesBelow .cssClass above, name ≠ "" ∧ ∀ c ∈ name.toList, Text.isBlank c = false := by
  intro name member
  rw [classesBelow_cssClass, List.mem_eraseDups] at member
  obtain ⟨h, _, given⟩ := List.mem_filterMap.mp member
  exact ⟨Stylesheet.textClassName_ne_empty given, Stylesheet.textClassName_solid given⟩

theorem layered_leaf {above : List AstHead} {i j : Inherited} (told : Describes .inline above i)
    (classed : Describes .cssClass above j) (marks : i.marks = j.marks) (content source : String) :
    Layered above (i.leaf content source) (j.leaf content source) := by
  have named : Stylesheet.classNames (j.leaf content source).classes =
      (classesAbove above).eraseDups := by
    have solid := classesBelow_solid above
    rw [← classesBelow_cssClass]
    rw [← classed.classes] at solid ⊢
    exact classNames_leaf j content source solid
  have styles : (i.leaf content source).styles = Inherited.unlessEmpty (stylesBelow .inline above) :=
    congrArg Inherited.unlessEmpty told.styles
  refine ⟨⟨rfl, congrArg Inherited.unlessEmpty marks, rfl⟩, fun key => ?_, named, fun key => ?_,
    fun spelled once => ?_⟩
  · rw [styles, Marks.held_unlessEmpty, get?_stylesBelow]
  · rw [get?_declared, named]
  · rw [styles, stylesBelow_inline, ← overlaid_classesAbove spelled, Stylesheet.declared, named,
      eraseDups_of_nodup once]

theorem convertAll_paired {like : Likeness} {i j : Inherited} {depth : Nat} {trees : List Ast}
    (each : ∀ c ∈ trees, Paired (List.Forall₂ (Resembles like)) (convert .inline i depth c)
      (convert .cssClass j depth c)) :
    Paired (List.Forall₂ (Resembles like)) (convertAll .inline i depth trees)
      (convertAll .cssClass j depth trees) := by
  induction trees with
  | nil =>
    rw [convertAll, convertAll]
    exact .ok .nil
  | cons c rest ih =>
    have others := ih fun d member => each d (List.mem_cons_of_mem _ member)
    rw [convertAll, convertAll]
    refine (each c List.mem_cons_self).bind fun first second alike => ?_
    exact others.bind fun more much further => .ok (List.rel_append alike further)

theorem convert_layered (a whole : Ast) (above : List AstHead) (i j : Inherited) (depth : Nat)
    (told : Describes .inline above i) (classed : Describes .cssClass above j)
    (marks : i.marks = j.marks) (inside : a.reached above ⊆ whole.reached []) :
    Paired (List.Forall₂ (Resembles (layered whole))) (convert .inline i depth a)
      (convert .cssClass j depth a) := by
  -- The two conversions go down a tree side by side, under the same heads.
  induction a using Ast.induct generalizing above i j depth with
  | node h children ih =>
    by_cases le : depth ≤ maxDepth
    · have text : ∀ content source, Resembles (layered whole) (.text (i.leaf content source))
          (.text (j.leaf content source)) := fun content source =>
        .text ⟨(above, h), inside (by simp [reached]), layered_leaf told classed marks content source⟩
      have below : h.isOpen = true → (i.through .inline h).marks = (j.through .cssClass h).marks →
          Paired (List.Forall₂ (Resembles (layered whole)))
            (convertAll .inline (i.through .inline h) (depth + 1) children)
            (convertAll .cssClass (j.through .cssClass h) (depth + 1) children) := by
        intro opens same
        refine convertAll_paired fun c member => ?_
        refine ih c member (above ++ [h]) _ _ _ (told.through opens) (classed.through opens) same ?_
        intro place lower
        refine inside ?_
        rw [reached, if_pos opens, reachedAll_eq_flatMap]
        exact List.mem_cons_of_mem _ (List.mem_flatMap.mpr ⟨c, member, lower⟩)
      rw [convert_node .inline i le, convert_node .cssClass j le]
      rw [← meaning_isOpen h] at below
      unfold Inherited.through at below
      cases sense : meaning h with
      | nothing => exact .ok .nil
      | words data => exact .ok (.cons (text data "text") .nil)
      | lineBreak => exact .ok (.cons (text "\n" "br") .nil)
      | void m => exact .ok (.cons (.element (sameUnstyled_head h m m.target) .nil) .nil)
      | group =>
        rw [sense] at below
        exact below rfl marks
      | formatting mark m =>
        rw [sense] at below
        refine (below rfl ?_).map fun first second => ?_
        · exact congrArg (fun t => Table.set t mark (.flag true)) marks
        · exact formatted_resembles (sameUnstyled_head h m "text")
      | element m =>
        rw [sense] at below
        refine (below rfl ?_).map fun first second alike => ?_
        · simpa using marks
        · exact .cons (.element (sameUnstyled_head h m m.target) alike) .nil
    · rw [convert, if_pos (by omega), convert, if_pos (by omega)]
      exact .error _ _

def nestedHeadings : Ast :=
  .node .root [.node (.tag "h1" []) [.node (.tag "h2" []) [.node (.tag "h1" []) [
    .node (.text "x") []]]]]

end Passes
end SemanticMarkup
