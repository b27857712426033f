import SemanticMarkup.Proofs.Likeness.Attributes
import SemanticMarkup.Proofs.Likeness.Rules

namespace SemanticMarkup
open Walk Passes Node

theorem Table.filter_set_of_kept {α : Type} {p : String × α → Bool} {key : String}
    (kept : ∀ value, p (key, value) = true) (t : Table α) (value : α) :
    (Table.set t key value).filter p = Table.set (t.filter p) key value := by
  induction t with
  | nil => simp [Table.set, kept]
  | cons entry rest ih =>
    obtain ⟨name, old⟩ := entry
    rw [Table.set]
    split
    · rename_i here
      subst here
      simp [kept, Table.set]
    · rename_i apart
      rw [List.filter_cons, List.filter_cons]
      split
      · rw [Table.set, if_neg apart, ih]
      · exact ih

theorem Table.set_ne_nil {α : Type} (t : Table α) (key : String) (value : α) :
    Table.set t key value ≠ [] := by
  cases t with
  | nil => simp [Table.set]
  | cons entry rest =>
    rw [Table.set]
    split <;> simp

theorem Table.update_eq_nil {α : Type} {t changes : Table α} :
    Table.update t changes = [] ↔ t = [] ∧ changes = [] := by
  induction changes generalizing t with
  | nil => simp
  | cons entry rest ih =>
    obtain ⟨key, value⟩ := entry
    simp [Table.update_cons, ih, Table.set_ne_nil]

def isStyling (key : String) : Bool := key == "style" || key == "className"

def unstyledTable (props : Table Value) : Table Value := props.filter fun entry => !isStyling entry.1

theorem unstyledTable_set (props : Table Value) {key : String} (styling : isStyling key = true)
    (value : Value) : unstyledTable (Table.set props key value) = unstyledTable props :=
  Table.filter_set (fun _ => by simp [styling]) props value

theorem unstyledTable_addStyle (attributes props : Table Value) :
    unstyledTable (addStyle attributes props) = unstyledTable props := by
  unfold addStyle
  dsimp only
  split
  · rfl
  · exact unstyledTable_set props rfl _

theorem unstyledTable_addClasses (attributes props : Table Value) :
    unstyledTable (addClasses attributes props) = unstyledTable props := by
  unfold addClasses
  dsimp only
  split
  · rfl
  · exact unstyledTable_set props rfl _

theorem unstyledTable_settle (props : Table Value) {key : String} (other : isStyling key = false)
    (value : Value) : unstyledTable (settle props key value) = settle (unstyledTable props) key value := by
  unfold settle
  split
  · exact Table.filter_set_of_kept (fun _ => by simp [other]) props value
  · rfl

theorem unstyledTable_imageProps (attributes props : Table Value) :
    unstyledTable (imageProps attributes props) =
      settle (unstyledTable props) "src" (Table.getD attributes "src") := by
  unfold imageProps
  dsimp only
  rw [unstyledTable_set _ rfl, unstyledTable_settle props rfl]

namespace ElementHead

def style (h : ElementHead) : Table Value := styleOf ((h.props.record?).getD [])
def className (h : ElementHead) : Value := Table.getD ((h.props.record?).getD []) "className"

structure SameUnstyled (h k : ElementHead) : Prop where
  tag : h.tag = k.tag
  role : h.role = k.role
  capabilities : h.capabilities = k.capabilities
  annotations : h.annotations = k.annotations
  props : h.props.mapRecord unstyledTable = k.props.mapRecord unstyledTable

theorem SameUnstyled.origin {h k : ElementHead} (same : SameUnstyled h k) : h.origin = k.origin := by
  rw [ElementHead.origin, same.annotations]
  rfl

end ElementHead

structure TextLeaf.SameUnstyled (l m : TextLeaf) : Prop where
  content : l.content = m.content
  marks : l.marks = m.marks
  annotations : l.annotations = m.annotations

-- Everything agrees but the styles and classes of elements and texts.
def upToStyling : Likeness where
  heads := ElementHead.SameUnstyled
  leaves := TextLeaf.SameUnstyled
  role same := same.role
  origin same := same.origin
  content same := same.content
  marks same := same.marks
  annotations same := same.annotations
  refilled same _ _ := ⟨rfl, same.marks, rfl⟩
  marker _ := ⟨rfl, rfl, rfl⟩

-- A class for the style of an element, with a rule that gives that style to the class. When all
-- names are spelled as the table has them, no style goes without a class.
structure ClassedHead (spelled : Prop) (h k : ElementHead) : Prop where
  same : ElementHead.SameUnstyled h k
  ruled : k.className = .null ∨ ∃ name, k.className = .text name ∧ h.style ≠ [] ∧
    ∀ root, Stylesheet.Ruled root name h.style
  classed : spelled → h.style ≠ [] → k.className ≠ .null

structure ClassedLeaf (spelled : Prop) (l m : TextLeaf) : Prop where
  same : TextLeaf.SameUnstyled l m
  ruled : m.classes = .null ∨ ∃ names, names ≠ [] ∧ m.classes = .text (String.intercalate " " names) ∧
    l.styles ≠ .null ∧ ∀ name ∈ names, (∀ c ∈ name.toList, Text.isBlank c = false) ∧
      ∀ root, ∃ style, Stylesheet.Ruled root name style
  classed : spelled → l.styles ≠ .null → m.classes ≠ .null

def classed (spelled : Prop) : Likeness where
  heads := ClassedHead spelled
  leaves := ClassedLeaf spelled
  role alike := alike.same.role
  origin alike := alike.same.origin
  content alike := alike.same.content
  marks alike := alike.same.marks
  annotations alike := alike.same.annotations
  refilled alike _ _ := ⟨⟨rfl, alike.same.marks, rfl⟩, alike.ruled, alike.classed⟩
  marker _ := ⟨⟨rfl, rfl, rfl⟩, .inl rfl, fun _ some => absurd rfl some⟩

namespace Passes
variable {i j : Inherited} {h : AstHead} {m : TagMapping} {spelled : Prop}

-- What is handed down in the two modes: the same marks, styles in one and classes in the other.
structure ClassedAlong (spelled : Prop) (i j : Inherited) : Prop where
  marks : i.marks = j.marks
  unclassed : i.classes = []
  unstyled : j.styles = []
  styled : j.classes ≠ [] → i.styles ≠ []
  ruled : ∀ name ∈ j.classes, (∀ c ∈ name.toList, Text.isBlank c = false) ∧
    ∀ root, ∃ style, Stylesheet.Ruled root name style
  classed : spelled → i.styles ≠ [] → j.classes ≠ []

def SpelledIf (spelled : Prop) (h k : AstHead) : Prop :=
  h = k ∧ (spelled → h.isTag = true → Tag.Spelled h.tagName)

theorem SpelledIf.flagged {h k : AstHead} (same : SpelledIf spelled h k) :
    SpelledIf spelled (flagBlank h) (flagBlank k) := by
  obtain ⟨rfl, names⟩ := same
  refine ⟨rfl, ?_⟩
  unfold flagBlank
  split <;> exact names

theorem sameUnstyled_head (h : AstHead) (m : TagMapping) (target : String) :
    ElementHead.SameUnstyled (head .inline h m target) (head .cssClass h m target) := by
  have styled : unstyledTable (props .inline h.tagName m) = [] := rfl
  have classed : unstyledTable (props .cssClass h.tagName m) = [] := by
    unfold props
    dsimp only
    split <;> rfl
  refine ⟨rfl, rfl, rfl, rfl, ?_⟩
  show Value.record _ = Value.record _
  rw [styled, classed]

theorem style_head (h : AstHead) (m : TagMapping) (target : String) :
    (head .inline h m target).style = m.defaultStyle := rfl

theorem className_head (h : AstHead) (m : TagMapping) (target : String) :
    (head .cssClass h m target).className =
      ((Stylesheet.className? h.tagName).map Value.text).getD .null := by
  unfold ElementHead.className head props
  dsimp only
  cases Stylesheet.className? h.tagName <;> rfl

theorem classedHead_head (mapped : Tag.mapping? h.tagName = some m)
    (names : spelled → Tag.Spelled h.tagName) (target : String) :
    ClassedHead spelled (head .inline h m target) (head .cssClass h m target) := by
  refine ⟨sameUnstyled_head h m target, ?_, ?_⟩
  · rw [className_head, style_head]
    cases named : Tag.named? h.tagName with
    | none =>
      rw [Stylesheet.className?, named]
      exact .inl rfl
    | some other =>
      have same : other = m := Option.some.inj ((Tag.mapping_of_named named).symm.trans mapped)
      subst same
      cases given : Stylesheet.className? h.tagName with
      | none => exact .inl rfl
      | some name =>
        refine .inr ⟨name, rfl, ?_, Stylesheet.ruled_className named given⟩
        rw [Stylesheet.className_of_named named] at given
        intro none
        rw [none] at given
        cases given
  · intro whole some
    rw [style_head] at some
    rw [className_head, Stylesheet.className_of_named (Tag.named_of_spelled (names whole) mapped),
      if_neg (by simpa using some)]
    intro none
    cases none

theorem classedLeaf_leaf (along : ClassedAlong spelled i j) (content source : String) :
    ClassedLeaf spelled (i.leaf content source) (j.leaf content source) := by
  have styles : (i.leaf content source).styles = Inherited.unlessEmpty i.styles := rfl
  have classes : (j.leaf content source).classes =
      if j.classes.isEmpty then .null else .text (String.intercalate " " j.classes) := rfl
  have null : Inherited.unlessEmpty i.styles = .null ↔ i.styles = [] := by
    cases i.styles <;> simp [Inherited.unlessEmpty]
  refine ⟨⟨rfl, congrArg Inherited.unlessEmpty along.marks, rfl⟩, ?_, ?_⟩
  · rw [classes, styles, Ne, null]
    by_cases none : j.classes = []
    · rw [none]
      exact .inl rfl
    · rw [if_neg (by simpa using none)]
      exact .inr ⟨j.classes, none, rfl, along.styled none, along.ruled⟩
  · intro whole some
    rw [styles, Ne, null] at some
    rw [classes, if_neg (by simpa using along.classed whole some)]
    exact nofun

theorem named_of_textClassName {name : String} (mapped : Tag.mapping? h.tagName = some m)
    (given : Stylesheet.textClassName? h.tagName = some name) :
    Tag.named? h.tagName = some m ∧ Style.inheritable m.defaultStyle ≠ [] := by
  cases named : Tag.named? h.tagName with
  | none =>
    rw [Stylesheet.textClassName?, named] at given
    cases given
  | some other =>
    have same : other = m := Option.some.inj ((Tag.mapping_of_named named).symm.trans mapped)
    subst same
    refine ⟨rfl, fun none => ?_⟩
    rw [Stylesheet.textClassName_of_named named, none] at given
    cases given

theorem inheritable_of_textClassless (spelled : Tag.Spelled h.tagName)
    (mapped : Tag.mapping? h.tagName = some m) (none : Stylesheet.textClassName? h.tagName = none) :
    Style.inheritable m.defaultStyle = [] := by
  rw [Stylesheet.textClassName_of_named (Tag.named_of_spelled spelled mapped)] at none
  by_contra more
  rw [if_neg (by simpa using more)] at none
  cases none

theorem within_cssClass (i : Inherited) (tag : String) (m : TagMapping) :
    i.within .cssClass tag m =
      { i with classes := match Stylesheet.textClassName? tag with
        | none => i.classes
        | some name => if i.classes.contains name then i.classes else i.classes ++ [name] } := by
  unfold Inherited.within
  dsimp only
  cases Stylesheet.textClassName? tag with
  | none => rfl
  | some name =>
    dsimp only
    split <;> rfl

theorem classedAlong_within (along : ClassedAlong spelled i j) (mapped : Tag.mapping? h.tagName = some m)
    (names : spelled → Tag.Spelled h.tagName) :
    ClassedAlong spelled (i.within .inline h.tagName m) (j.within .cssClass h.tagName m) := by
  have inner : (i.within .inline h.tagName m).styles =
      Table.update i.styles (Style.inheritable m.defaultStyle) := rfl
  rw [within_cssClass]
  cases given : Stylesheet.textClassName? h.tagName with
  | none =>
    refine ⟨along.marks, along.unclassed, along.unstyled, ?_, along.ruled, ?_⟩
    · intro some
      rw [inner, Ne, Table.update_eq_nil]
      exact fun both => along.styled some both.1
    · intro whole some
      rw [inner, inheritable_of_textClassless (names whole) mapped given, Table.update_nil] at some
      exact along.classed whole some
  | some name =>
    obtain ⟨named, handed⟩ := named_of_textClassName mapped given
    refine ⟨along.marks, along.unclassed, along.unstyled, ?_, ?_, ?_⟩
    · intro _
      rw [inner, Ne, Table.update_eq_nil]
      exact fun both => handed both.2
    · intro known member
      have among : known ∈ j.classes ∨ known = name := by
        dsimp only at member
        split at member
        · exact .inl member
        · simpa using member
      rcases among with old | rfl
      · exact along.ruled known old
      · exact ⟨Stylesheet.textClassName_solid given,
          fun root => ⟨_, Stylesheet.ruled_textClassName named given root⟩⟩
    · intro _ _
      dsimp only
      split
      · rename_i known
        exact List.ne_nil_of_mem (by simpa using known)
      · simp

theorem along_classed (spelled : Prop) :
    Alongside (classed spelled) .inline .cssClass (SpelledIf spelled) (ClassedAlong spelled) where
  meaning same := congrArg meaning same.1
  head {h k m target} same tag mapped := by
    obtain ⟨rfl, names⟩ := same
    exact classedHead_head mapped (fun whole => names whole tag) target
  leaf along content source := classedLeaf_leaf along content source
  withMark {i j} along mark := by
    have marks : (i.withMark mark).marks = (j.withMark mark).marks := by
      rw [Inherited.withMark, Inherited.withMark, along.marks]
    exact ⟨marks, along.unclassed, along.unstyled, along.styled, along.ruled, along.classed⟩
  within {i j h k m} along same tag mapped := by
    obtain ⟨rfl, names⟩ := same
    exact classedAlong_within along mapped fun whole => names whole tag

theorem along_styling : Alongside upToStyling .inline .cssClass Eq fun i j => i.marks = j.marks where
  meaning := congrArg meaning
  head {h k m target} same _ _ := by
    rw [← same]
    exact sameUnstyled_head h m target
  leaf same content source := ⟨rfl, congrArg Inherited.unlessEmpty same, rfl⟩
  withMark same mark := by rw [Inherited.withMark, Inherited.withMark, same]
  within {i j h k m} same _ _ _ := by
    have kept : (j.within .cssClass k.tagName m).marks = j.marks := by rw [within_cssClass]
    exact Eq.trans same kept.symm

theorem mapRecord_blind {view change : Table Value → Table Value}
    (blind : ∀ first second, view first = view second → view (change first) = view (change second))
    {given other : Value} (same : given.mapRecord view = other.mapRecord view) :
    (given.mapRecord change).mapRecord view = (other.mapRecord change).mapRecord view := by
  cases given with
  | record first =>
    cases other with
    | record second => exact congrArg Value.record (blind first second (Value.record.inj same))
    | _ => cases same
  | _ =>
    cases other with
    | record second => cases same
    | _ => exact same

theorem onProps_upToStyling {change : Table Value → Table Value → Table Value}
    (blind : ∀ attributes first second, unstyledTable first = unstyledTable second →
      unstyledTable (change attributes first) = unstyledTable (change attributes second))
    {n k : Node} (alike : Resembles upToStyling n k) :
    Resembles upToStyling (onProps change n) (onProps change k) := by
  cases alike with
  | text leaves => exact .text leaves
  | @element h k cs ds heads inside =>
    obtain ⟨tag, role, capabilities, annotations, props⟩ := heads
    have attributes : h.attributes = k.attributes := by
      rw [ElementHead.attributes, annotations]
      rfl
    rw [onProps_element, onProps_element, attributes]
    exact .element ⟨tag, role, capabilities, annotations, mapRecord_blind (blind _) props⟩ inside

theorem served_upToStyling (removeStyle removeClass : Bool) (n k : Node)
    (alike : Resembles upToStyling n k) :
    Resembles upToStyling (served removeStyle removeClass n) (served removeStyle removeClass k) := by
  have merged : Resembles upToStyling (mergeAttributes removeStyle removeClass n)
      (mergeAttributes removeStyle removeClass k) := by
    refine onProps_upToStyling (fun attributes first second same => ?_) alike
    have unseen : ∀ props, unstyledTable (if removeClass then
        (if removeStyle then props else addStyle attributes props)
        else addClasses attributes (if removeStyle then props else addStyle attributes props)) =
          unstyledTable props := by
      intro props
      split
      · split
        · rfl
        · exact unstyledTable_addStyle attributes props
      · rw [unstyledTable_addClasses]
        split
        · rfl
        · exact unstyledTable_addStyle attributes props
    exact (unseen first).trans (same.trans (unseen second).symm)
  have dressed : Resembles upToStyling (ensureCapabilities (mergeAttributes removeStyle removeClass n))
      (ensureCapabilities (mergeAttributes removeStyle removeClass k)) := by
    generalize mergeAttributes removeStyle removeClass n = first at merged
    generalize mergeAttributes removeStyle removeClass k = second at merged
    cases merged with
    | text leaves => exact .text leaves
    | element heads inside =>
      obtain ⟨tag, role, capabilities, annotations, props⟩ := heads
      have limits := congrArg (fun limits : Limits => limits.orElse defaultCapabilities) capabilities
      exact .element ⟨tag, role, limits, annotations, props⟩ inside
  have tags : n.tag = k.tag := by
    cases alike with
    | text _ => rfl
    | element heads _ => exact ElementHead.SameUnstyled.tag heads
  unfold served
  rw [alike.isElement]
  split
  · rw [tags]
    dsimp only
    split
    · unfold resolveImage
      rw [dressed.hasSourceTag]
      split
      · refine onProps_upToStyling (fun attributes first second same => ?_) dressed
        rw [unstyledTable_imageProps, unstyledTable_imageProps, same]
      · exact dressed
    · exact dressed
  · exact alike

end Passes
end SemanticMarkup
