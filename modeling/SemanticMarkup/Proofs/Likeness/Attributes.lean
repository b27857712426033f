import SemanticMarkup.Proofs.Likeness.Conversion

namespace SemanticMarkup
open Walk Passes Node

namespace Table
variable {α : Type}

def KeepsKeys (f : String × α → String × α) : Prop := ∀ entry, (f entry).1 = entry.1

theorem get?_map {f : String × α → String × α} (keeps : KeepsKeys f) (t : Table α) (key : String) :
    get? (t.map f) key = (get? t key).map fun value => (f (key, value)).2 := by
  induction t with
  | nil => rfl
  | cons entry rest ih =>
    obtain ⟨name, value⟩ := entry
    have kept : (f (name, value)).1 = name := keeps (name, value)
    rw [List.map_cons, get?_cons, show f (name, value) = ((f (name, value)).1, (f (name, value)).2) from rfl,
      get?_cons, kept, ih]
    by_cases here : key = name
    · simp [here]
    · simp [here]

theorem map_set {f : String × α → String × α} (keeps : KeepsKeys f) (t : Table α) (key : String)
    (value : α) : (set t key value).map f = set (t.map f) key (f (key, value)).2 := by
  induction t with
  | nil =>
    have kept : (f (key, value)).1 = key := keeps (key, value)
    exact congrArg (fun entry => [entry]) (Prod.ext kept rfl)
  | cons entry rest ih =>
    obtain ⟨name, old⟩ := entry
    have kept : (f (name, old)).1 = name := keeps (name, old)
    have shape : f (name, old) = (name, (f (name, old)).2) := Prod.ext kept rfl
    rw [List.map_cons, shape, set, set]
    split
    · rename_i here
      have own : (f (name, value)).1 = name := keeps (name, value)
      rw [List.map_cons, ← here, show f (name, value) = (name, (f (name, value)).2) from Prod.ext own rfl]
    · rw [List.map_cons, shape, ih]

theorem filter_set {p : String × α → Bool} {key : String} (drops : ∀ value, p (key, value) = false)
    (t : Table α) (value : α) : (set t key value).filter p = t.filter p := by
  induction t with
  | nil => simp [set, drops]
  | cons entry rest ih =>
    obtain ⟨name, old⟩ := entry
    rw [set]
    split
    · rename_i here
      subst here
      simp [drops]
    · rw [List.filter_cons, List.filter_cons, ih]

theorem get?_filter {p : String × α → Bool} {key : String} (keeps : ∀ value, p (key, value) = true)
    (t : Table α) : get? (t.filter p) key = get? t key := by
  induction t with
  | nil => rfl
  | cons entry rest ih =>
    obtain ⟨name, value⟩ := entry
    by_cases here : key = name
    · subst here
      simp [get?_cons, keeps]
    · rw [List.filter_cons, get?_cons, if_neg here]
      split
      · rw [get?_cons, if_neg here, ih]
      · exact ih

end Table

namespace AstHead

def unattributed (h : AstHead) : AstHead := { h with attributes := [] }

def SameButAttributes (h k : AstHead) : Prop := h.unattributed = k.unattributed

def SameButStyling (h k : AstHead) : Prop :=
  SameButAttributes h k ∧ ∀ key, key ≠ "style" → key ≠ "class" →
    Table.get? h.attributes key = Table.get? k.attributes key

theorem SameButAttributes.tagName {h k : AstHead} (same : SameButAttributes h k) :
    h.tagName = k.tagName := by
  have names := congrArg AstHead.tagName same
  exact names

theorem SameButAttributes.kind {h k : AstHead} (same : SameButAttributes h k) : h.kind = k.kind := by
  have kinds := congrArg AstHead.kind same
  exact kinds

theorem SameButAttributes.flagged {h k : AstHead} (same : SameButAttributes h k) :
    SameButAttributes (flagBlank h) (flagBlank k) := by
  have apart : ∀ h : AstHead, (flagBlank h).unattributed = flagBlank h.unattributed := by
    intro h
    unfold flagBlank
    rw [show h.unattributed.isText = h.isText from rfl]
    split <;> rfl
  unfold SameButAttributes at same ⊢
  rw [apart, apart, same]

theorem attributes_flagBlank (h : AstHead) : (flagBlank h).attributes = h.attributes := by
  unfold flagBlank
  split <;> rfl

end AstHead

namespace ElementHead

def attributes (h : ElementHead) : Table Value :=
  ((Table.getD ((h.annotations.record?).getD []) "source_attrs").record?).getD []

end ElementHead

def Value.mapRecord (change : Table Value → Table Value) : Value → Value
  | .record fields => .record (change fields)
  | given => given

def unattributedNotes : Value → Value :=
  Value.mapRecord fun fields => fields.filter fun entry => entry.1 ≠ "source_attrs"

-- Elements that agree but for their props and the markup attributes they came with.
structure ElementHead.SameBare (h k : ElementHead) : Prop where
  tag : h.tag = k.tag
  role : h.role = k.role
  capabilities : h.capabilities = k.capabilities
  notes : unattributedNotes h.annotations = unattributedNotes k.annotations

namespace ElementHead.SameBare
variable {h k : ElementHead}

theorem origin (same : SameBare h k) : h.origin = k.origin := by
  have read : ∀ notes : Value, Table.getD (((unattributedNotes notes).record?).getD []) "source_tag" =
      Table.getD ((notes.record?).getD []) "source_tag" := by
    intro notes
    cases notes with
    | record fields =>
      show (Table.get? (fields.filter fun entry => entry.1 ≠ "source_attrs") "source_tag").getD .null = _
      rw [Table.get?_filter fun value => by simp]
      rfl
    | _ => rfl
  rw [ElementHead.origin, ElementHead.origin, ← read, same.notes, read]

theorem ensured (same : SameBare h k) :
    SameBare { h with capabilities := h.capabilities.orElse defaultCapabilities }
      { k with capabilities := k.capabilities.orElse defaultCapabilities } :=
  ⟨same.tag, same.role, by rw [same.capabilities], same.notes⟩

end ElementHead.SameBare

-- Everything agrees but the props of elements and the attributes in their annotations.
def upToProps : Likeness where
  heads := ElementHead.SameBare
  leaves l m := l = m
  role same := same.role
  origin same := same.origin
  content := congrArg TextLeaf.content
  marks := congrArg TextLeaf.marks
  annotations := congrArg TextLeaf.annotations
  refilled same _ _ := by rw [same]
  marker _ := rfl

def isSide (key : String) : Bool := key == "width" || key == "height"

def withoutSides (entry : String × Value) : String × Value :=
  if entry.1 = "style" then (entry.1, .record (entry.2.entries.filter fun side => !isSide side.1)) else entry

def unsized (props : Table Value) : Table Value := props.map withoutSides

theorem withoutSides_keeps : Table.KeepsKeys withoutSides := by
  intro entry
  unfold withoutSides
  split <;> rfl

theorem styleOf_unsized (props : Table Value) :
    styleOf (unsized props) = (styleOf props).filter fun side => !isSide side.1 := by
  unfold styleOf Table.getD unsized
  rw [Table.get?_map withoutSides_keeps]
  cases Table.get? props "style" <;> rfl

theorem unsized_settle (props : Table Value) {key : String} (other : key ≠ "style") (value : Value) :
    unsized (settle props key value) = settle (unsized props) key value := by
  unfold settle
  split
  · unfold unsized
    rw [Table.map_set withoutSides_keeps, withoutSides, if_neg other]
  · rfl

theorem settle_sides {side : String} (isSide : isSide side = true) (style : Table Value) (value : Value) :
    (settle style side value).filter (fun entry => !SemanticMarkup.isSide entry.1) =
      style.filter fun entry => !SemanticMarkup.isSide entry.1 := by
  unfold settle
  split
  · exact Table.filter_set (fun _ => by simp [isSide]) style value
  · rfl

theorem fill_sides {side : String} (isSide : isSide side = true) (style : Table Value) (value : Value) :
    (fill style side value).filter (fun entry => !SemanticMarkup.isSide entry.1) =
      style.filter fun entry => !SemanticMarkup.isSide entry.1 := by
  unfold fill
  split
  · rfl
  · exact settle_sides isSide style value

theorem imageStyle_sides (attributes style : Table Value) :
    (imageStyle attributes style).filter (fun entry => !isSide entry.1) =
      style.filter fun entry => !isSide entry.1 := by
  have width : isSide "width" = true := rfl
  have height : isSide "height" = true := rfl
  unfold imageStyle
  rw [fill_sides height, fill_sides width, fill_sides height, fill_sides width, settle_sides height,
    settle_sides width]

def withSrc (source : Value) (props : Table Value) : Table Value :=
  Table.set (settle props "src" source) "style" (.record (styleOf (settle props "src" source)))

theorem unsized_imageProps (attributes props : Table Value) :
    unsized (imageProps attributes props) = withSrc (Table.getD attributes "src") (unsized props) := by
  have sides := imageStyle_sides attributes
    (styleOf (settle props "src" (Table.getD attributes "src")))
  unfold imageProps withSrc
  dsimp only
  rw [← unsized_settle props (by decide), styleOf_unsized, ← sides]
  unfold unsized
  rw [Table.map_set withoutSides_keeps]
  rfl

def unsizedProps : Value → Value := Value.mapRecord unsized

theorem unsizedProps_image (attributes : Table Value) (props : Value) :
    unsizedProps (Value.mapRecord (imageProps attributes) props) =
      Value.mapRecord (withSrc (Table.getD attributes "src")) (unsizedProps props) := by
  cases props with
  | record table => exact congrArg Value.record (unsized_imageProps attributes table)
  | _ => rfl

-- Everything agrees but the style and class attributes in the annotations, and the sides of images.
structure SameButSides (h k : ElementHead) : Prop where
  bare : ElementHead.SameBare h k
  attributes : ∀ key, key ≠ "style" → key ≠ "class" →
    Table.get? h.attributes key = Table.get? k.attributes key
  props : h.origin.isText Tag.image = false → h.props = k.props
  unsized : h.origin.isText Tag.image = true → unsizedProps h.props = unsizedProps k.props

def upToSides : Likeness where
  heads := SameButSides
  leaves l m := l = m
  role same := upToProps.role same.bare
  origin same := upToProps.origin same.bare
  content := upToProps.content
  marks := upToProps.marks
  annotations := upToProps.annotations
  refilled := upToProps.refilled
  marker := upToProps.marker

namespace Passes
variable {h k : ElementHead} {n m : Node} {cs : List Node}

theorem notes_head (mode : StyleMode) (h : AstHead) (m : TagMapping) (target : String) :
    unattributedNotes (head mode h m target).annotations = .record [("source_tag", .text h.tagName)] := by
  simp [head, unattributedNotes, Value.mapRecord]

theorem along_props (mode : StyleMode) :
    Alongside upToProps mode mode AstHead.SameButAttributes Eq where
  meaning same := by
    have senses := congrArg meaning same
    exact senses
  head {h k m target} same _ _ := by
    refine ⟨rfl, rfl, rfl, ?_⟩
    rw [notes_head, notes_head, same.tagName]
  leaf same _ _ := by
    rw [same]
    exact rfl
  withMark same _ := by rw [same]
  within {i j h k m} same heads _ _ := by
    rw [same, heads.tagName]

theorem attributes_head (mode : StyleMode) (h : AstHead) (m : TagMapping) (target : String) :
    (head mode h m target).attributes = h.attributes := by
  simp [head, ElementHead.attributes, Value.record?, Table.getD, Table.get?_cons]

theorem along_sides (mode : StyleMode) : Alongside upToSides mode mode AstHead.SameButStyling Eq where
  meaning same := (along_props mode).meaning same.1
  head {h k m target} same tag mapped := by
    have props : (head mode h m target).props = (head mode k m target).props := by
      unfold head
      rw [same.1.tagName]
    refine ⟨(along_props mode).head same.1 tag mapped, ?_, fun _ => props, fun _ => congrArg _ props⟩
    rw [attributes_head, attributes_head]
    exact same.2
  leaf := (along_props mode).leaf
  withMark := (along_props mode).withMark
  within same heads tag mapped := (along_props mode).within same heads.1 tag mapped

theorem onProps_element (change : Table Value → Table Value → Table Value) (h : ElementHead)
    (cs : List Node) :
    onProps change (.element h cs) =
      .element { h with props := h.props.mapRecord (change h.attributes) } cs := by
  obtain ⟨tag, props, role, capabilities, annotations⟩ := h
  cases props <;> rfl

theorem onProps_upToProps (change : Table Value → Table Value → Table Value)
    (alike : Resembles upToProps n m) : Resembles upToProps (onProps change n) (onProps change m) := by
  cases alike with
  | text leaves => exact .text leaves
  | @element h k cs ds heads inside =>
    have same : ElementHead.SameBare h k := heads
    rw [onProps_element, onProps_element]
    exact .element ⟨same.tag, same.role, same.capabilities, same.notes⟩ inside

theorem ensured_upToProps (alike : Resembles upToProps n m) :
    Resembles upToProps (ensureCapabilities n) (ensureCapabilities m) := by
  cases alike with
  | text leaves => exact .text leaves
  | @element h k cs ds heads inside =>
    have same : ElementHead.SameBare h k := heads
    exact .element same.ensured inside

theorem tag_upToProps (alike : Resembles upToProps n m) : n.tag = m.tag := by
  cases alike with
  | text _ => rfl
  | @element h k _ _ heads _ =>
    have same : ElementHead.SameBare h k := heads
    exact same.tag

theorem served_upToProps (removeStyle removeClass : Bool) (n m : Node) (alike : Resembles upToProps n m) :
    Resembles upToProps (served removeStyle removeClass n) (served removeStyle removeClass m) := by
  have dressed : Resembles upToProps (ensureCapabilities (mergeAttributes removeStyle removeClass n))
      (ensureCapabilities (mergeAttributes removeStyle removeClass m)) :=
    ensured_upToProps (onProps_upToProps _ alike)
  unfold served
  rw [alike.isElement]
  split
  · rw [tag_upToProps alike]
    dsimp only
    split
    · unfold resolveImage
      rw [dressed.hasSourceTag]
      split
      · exact onProps_upToProps imageProps dressed
      · exact dressed
    · exact dressed
  · exact alike

theorem mergeAttributes_removed (n : Node) : mergeAttributes true true n = n := by
  cases n with
  | element h cs =>
    obtain ⟨tag, props, role, capabilities, annotations⟩ := h
    cases props <;> rfl
  | barren h given =>
    obtain ⟨tag, props, role, capabilities, annotations⟩ := h
    cases props <;> rfl
  | _ => rfl

theorem imaged_upToSides {ds : List Node} (heads : SameButSides h k)
    (inside : List.Forall₂ (Resembles upToSides) cs ds)
    (image : (Node.element h cs).hasSourceTag Tag.image = true) :
    Resembles upToSides (onProps imageProps (.element h cs)) (onProps imageProps (.element k ds)) := by
  have origin : h.origin.isText Tag.image = true := image
  have source : Table.getD h.attributes "src" = Table.getD k.attributes "src" := by
    rw [Table.getD, heads.attributes "src" (by decide) (by decide)]
    rfl
  obtain ⟨bare, attributes, _, unsized⟩ := heads
  rw [onProps_element, onProps_element]
  refine .element ⟨⟨bare.tag, bare.role, bare.capabilities, bare.notes⟩, attributes, ?_, fun _ => ?_⟩ inside
  · intro other
    exact absurd origin (Bool.eq_false_iff.mp other)
  · rw [unsizedProps_image, unsizedProps_image, source, unsized origin]

theorem served_upToSides (n m : Node) (alike : Resembles upToSides n m) :
    Resembles upToSides (served true true n) (served true true m) := by
  cases alike with
  | text leaves => exact .text leaves
  | @element h k cs ds heads inside =>
    have dressed : SameButSides { h with capabilities := h.capabilities.orElse defaultCapabilities }
        { k with capabilities := k.capabilities.orElse defaultCapabilities } :=
      ⟨heads.bare.ensured, heads.attributes, heads.props, heads.unsized⟩
    unfold served
    rw [mergeAttributes_removed, mergeAttributes_removed]
    show Resembles upToSides
      (if h.tag.isText "image" = true then resolveImage (.element _ cs) else .element _ cs)
      (if k.tag.isText "image" = true then resolveImage (.element _ ds) else .element _ ds)
    rw [heads.bare.tag]
    split
    · unfold resolveImage
      have origins := (Resembles.element dressed inside : Resembles upToSides _ _).hasSourceTag Tag.image
      rw [← origins]
      split
      · rename_i image
        exact imaged_upToSides dressed inside image
      · exact .element dressed inside
    · exact .element dressed inside

end Passes

namespace Transformer
variable {ε σ : Type} {t : Transformer ε σ} {a b : Ast}

theorem root_of_twins {R : AstHead → AstHead → Prop} (twins : a.Twins R b)
    (kinds : ∀ h k, R h k → h.kind = k.kind) (top : a.head.kind = .root) : b.head.kind = .root := by
  cases twins with
  | node heads _ => exact (kinds _ _ heads).symm.trans top

-- Markup that differs in nothing but attributes fails alike or gives the same forest up to props
-- and the attributes noted in annotations: no attribute decides about shapes, tags, roles,
-- capabilities, texts or what texts inherit. With all styling removed, style and class attributes
-- leave no trace in props either, but for the sides of images.
theorem complete_unattributed (t : Transformer ε σ) (unchanged : t.plugins = builtin) {a b : Ast}
    (top : a.head.kind = .root) (twins : a.Twins AstHead.SameButAttributes b)
    (source other : String) (shared given : σ) :
    Paired (List.Forall₂ (Resembles upToProps)) (t.complete.exec (t.start a source shared)).1
        (t.complete.exec (t.start b other given)).1 ∧
      (t.options.removeAllStyle.isTrue = true → t.options.removeAllClass.isTrue = true →
        a.Twins AstHead.SameButStyling b →
          Paired (List.Forall₂ (Resembles upToSides)) (t.complete.exec (t.start a source shared)).1
            (t.complete.exec (t.start b other given)).1) := by
  have root := root_of_twins twins (fun h k same => same.kind) top
  refine ⟨?_, fun styles classes same => ?_⟩
  · have alike : Resembles upToProps (t.converted a) (t.converted b) :=
      converted_resembles (along_props _) rfl ⟨rfl, rfl, rfl, rfl⟩ (fun h k same => same.flagged) twins
    refine complete_resembles unchanged unchanged top root (twins.within_iff maxDepth) ?_ source other
      shared given
    exact fun first second => grown_resembles first second (served_upToProps _ _) alike
  · have alike : Resembles upToSides (t.converted a) (t.converted b) := by
      refine converted_resembles (along_sides _) rfl ?_ (fun h k same => ?_) same
      · exact ⟨⟨rfl, rfl, rfl, rfl⟩, fun _ _ _ => rfl, fun _ => rfl, fun _ => rfl⟩
      · refine ⟨same.1.flagged, ?_⟩
        rw [AstHead.attributes_flagBlank, AstHead.attributes_flagBlank]
        exact same.2
    refine complete_resembles unchanged unchanged top root (same.within_iff maxDepth) ?_ source other
      shared given
    intro first second
    refine grown_resembles first second ?_ alike
    rw [styles, classes]
    exact served_upToSides

def plainest : Transformer Empty Unit :=
  ⟨⟨.flag true, .flag true, .inline, .text Stylesheet.defaultRoot, none, .flag false, .flag true⟩,
    builtin, nofun⟩

def pictured (style : String) : Ast :=
  .node .root [.node (.tag "p" [("style", style)]) [.node (.tag "img" [("src", "x"), ("style", style)]) []]]

theorem pictured_twins (style other : String) :
    (pictured style).Twins AstHead.SameButStyling (pictured other) := by
  have image : AstHead.SameButStyling (.tag "img" [("src", "x"), ("style", style)])
      (.tag "img" [("src", "x"), ("style", other)]) := by
    refine ⟨rfl, fun key apart _ => ?_⟩
    simp [AstHead.tag, Table.mapValues, Table.get?_cons, apart]
  have paragraph : AstHead.SameButStyling (.tag "p" [("style", style)]) (.tag "p" [("style", other)]) := by
    refine ⟨rfl, fun key apart _ => ?_⟩
    simp [AstHead.tag, Table.mapValues, Table.get?_cons, apart]
  exact .node ⟨rfl, fun _ _ _ => rfl⟩ (.cons (.node paragraph (.cons (.node image .nil) .nil)) .nil)

theorem pictured_unattributed :
    plainest.plugins = builtin ∧ (pictured "color: red").head.kind = .root ∧
      (pictured "color: red").Twins AstHead.SameButAttributes (pictured "width: 1px") ∧
      (∃ nodes, (plainest.complete.exec (plainest.start (pictured "color: red") "" ())).1 = .ok nodes) ∧
      Paired (List.Forall₂ (Resembles upToSides))
        (plainest.complete.exec (plainest.start (pictured "color: red") "" ())).1
        (plainest.complete.exec (plainest.start (pictured "width: 1px") "" ())).1 := by
  have twins := pictured_twins "color: red" "width: 1px"
  have plain : (pictured "color: red").Twins AstHead.SameButAttributes (pictured "width: 1px") :=
    .node rfl (.cons (.node rfl (.cons (.node rfl .nil) .nil)) .nil)
  have shallow : Within 2 (pictured "color: red") := by
    simp [pictured, Within, Branching.children, Ast.children]
  have none : ¬ItemAt maxDepth (plainest.converted (pictured "color: red")) := by
    obtain ⟨paragraph, image, same⟩ : ∃ paragraph image, plainest.converted (pictured "color: red") =
        Node.root.withChildren [.element paragraph [.element image []]] := ⟨_, _, rfl⟩
    have above : Within 2 (plainest.converted (pictured "color: red")) := by
      rw [same]
      simp [Within, Branching.children, Node.children, Node.root, Node.withChildren]
    intro item
    have low : maxDepth ≤ 2 := itemAt_le above item
    exact absurd low (by decide)
  refine ⟨rfl, rfl, plain, ?_, ?_⟩
  · exact complete_ok rfl rfl (shallow.mono (by decide)) none "" ()
  · exact (complete_unattributed plainest rfl rfl plain "" "" () ()).2 rfl rfl twins

end Transformer
end SemanticMarkup
