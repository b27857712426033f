import SemanticMarkup.Proofs.Likeness.Names
import SemanticMarkup.Proofs.Pipeline.Gate
import SemanticMarkup.Proofs.Pipeline.Modes
import SemanticMarkup.Proofs.Props.Heads

namespace SemanticMarkup
open Walk Passes Node

def unnamedNotes : Value → Value :=
  Value.mapRecord fun fields => fields.filter fun entry => entry.1 ≠ "source_tag"

def unclassedTable (props : Table Value) : Table Value := props.filter fun entry => entry.1 ≠ "className"

-- Elements that agree but for the name of their tag, which no pass looks for, and for their class if
-- that need not be the same.
structure ElementHead.Renamed (exact : Prop) (h k : ElementHead) : Prop where
  tag : h.tag = k.tag
  role : h.role = k.role
  capabilities : h.capabilities = k.capabilities
  notes : unnamedNotes h.annotations = unnamedNotes k.annotations
  origin : ∀ tag ∈ Tag.image :: structuralTags, h.origin.isText tag = k.origin.isText tag
  props : h.props.mapRecord unclassedTable = k.props.mapRecord unclassedTable
  classes : exact → h.props = k.props

structure TextLeaf.Renamed (exact : Prop) (l m : TextLeaf) : Prop where
  content : l.content = m.content
  marks : l.marks = m.marks
  styles : l.styles = m.styles
  annotations : l.annotations = m.annotations
  classes : exact → l.classes = m.classes

inductive Node.Renamed (exact : Prop) : Node → Node → Prop where
  | element {h k : ElementHead} {cs ds : List Node} (heads : ElementHead.Renamed exact h k)
    (inside : List.Forall₂ (Renamed exact) cs ds) : Renamed exact (.element h cs) (.element k ds)
  | text {l m : TextLeaf} (leaves : TextLeaf.Renamed exact l m) : Renamed exact (.text l) (.text m)

namespace ElementHead.Renamed
variable {exact : Prop} {h k : ElementHead}

theorem attributes (same : Renamed exact h k) : h.attributes = k.attributes := by
  have read : ∀ notes : Value,
      Table.getD (((unnamedNotes notes).record?).getD []) "source_attrs" =
        Table.getD ((notes.record?).getD []) "source_attrs" := by
    intro notes
    cases notes with
    | record fields =>
      show (Table.get? (fields.filter fun entry => entry.1 ≠ "source_tag") "source_attrs").getD .null = _
      rw [Table.get?_filter fun value => by simp]
      rfl
    | _ => rfl
  rw [ElementHead.attributes, ElementHead.attributes, ← read, same.notes, read]

theorem changed (same : Renamed exact h k) (change : Table Value → Table Value → Table Value)
    (blind : ∀ attributes first second, unclassedTable first = unclassedTable second →
      unclassedTable (change attributes first) = unclassedTable (change attributes second)) :
    Renamed exact { h with props := h.props.mapRecord (change h.attributes) }
      { k with props := k.props.mapRecord (change k.attributes) } := by
  rw [same.attributes]
  exact ⟨same.tag, same.role, same.capabilities, same.notes, same.origin,
    mapRecord_blind (blind _) same.props,
    fun whole => congrArg (Value.mapRecord (change k.attributes)) (same.classes whole)⟩

end ElementHead.Renamed

namespace Passes
variable {exact : Prop} {attributes props : Table Value}

theorem styleOf_unclassed (props : Table Value) : styleOf (unclassedTable props) = styleOf props := by
  rw [styleOf, Table.getD, unclassedTable, Table.get?_filter fun value => by simp]
  rfl

theorem unclassed_set {key : String} (other : key ≠ "className") (props : Table Value) (value : Value) :
    unclassedTable (Table.set props key value) = Table.set (unclassedTable props) key value :=
  Table.filter_set_of_kept (fun _ => by simpa using other) props value

theorem unclassed_settle {key : String} (other : key ≠ "className") (props : Table Value) (value : Value) :
    unclassedTable (settle props key value) = settle (unclassedTable props) key value := by
  unfold settle
  split
  · exact unclassed_set other props value
  · rfl

theorem unclassed_addStyle (attributes props : Table Value) :
    unclassedTable (addStyle attributes props) = addStyle attributes (unclassedTable props) := by
  unfold addStyle
  dsimp only
  split
  · rfl
  · rw [unclassed_set (by decide), styleOf_unclassed]

theorem unclassed_addClasses (attributes props : Table Value) :
    unclassedTable (addClasses attributes props) = unclassedTable props := by
  unfold addClasses
  dsimp only
  split
  · rfl
  · exact Table.filter_set (fun _ => by simp) props _

theorem unclassed_imageProps (attributes props : Table Value) :
    unclassedTable (imageProps attributes props) = imageProps attributes (unclassedTable props) := by
  unfold imageProps
  dsimp only
  rw [unclassed_set (by decide), unclassed_settle (by decide), ← unclassed_settle (by decide),
    styleOf_unclassed, unclassed_settle (by decide)]

theorem onHead_renamed (handler : CapabilityHandler) {h k : ElementHead}
    (same : ElementHead.Renamed exact h k) :
    ElementHead.Renamed exact (handler.onHead h) (handler.onHead k) := by
  cases handler with
  | style removeStyle removeClass =>
    refine same.changed (fun attributes props =>
      let props := if removeStyle then props else addStyle attributes props
      if removeClass then props else addClasses attributes props) fun attributes first second alike => ?_
    have styled : ∀ props, unclassedTable (if removeStyle then props else addStyle attributes props) =
        if removeStyle then unclassedTable props else addStyle attributes (unclassedTable props) := by
      intro props
      split
      · rfl
      · exact unclassed_addStyle attributes props
    have seen : ∀ props, unclassedTable (if removeClass then
          (if removeStyle then props else addStyle attributes props)
        else addClasses attributes (if removeStyle then props else addStyle attributes props)) =
          if removeStyle then unclassedTable props else addStyle attributes (unclassedTable props) := by
      intro props
      split
      · exact styled props
      · rw [unclassed_addClasses]
        exact styled props
    dsimp only
    rw [seen, seen, alike]
  | layout =>
    have limits := congrArg (fun limits : Limits => limits.orElse defaultCapabilities)
      same.capabilities
    exact ⟨same.tag, same.role, limits, same.notes, same.origin, same.props, same.classes⟩
  | media =>
    rw [CapabilityHandler.onHead, CapabilityHandler.onHead, same.origin Tag.image List.mem_cons_self]
    split
    · refine same.changed imageProps fun attributes first second alike => ?_
      rw [unclassed_imageProps, unclassed_imageProps, alike]
    · exact same

theorem served_element (removeStyle removeClass : Bool) (h : ElementHead) (cs : List Node) :
    let front := dressed [.style removeStyle removeClass, .layout] h
    served removeStyle removeClass (.element h cs) =
      .element (if h.tag.isText "image" then CapabilityHandler.media.onHead front else front) cs := by
  have both : ensureCapabilities (mergeAttributes removeStyle removeClass (.element h cs)) =
      .element (dressed [.style removeStyle removeClass, .layout] h) cs := by
    show CapabilityHandler.layout.edit ((CapabilityHandler.style removeStyle removeClass).edit _) = _
    rw [edit_eq_onHead, edit_eq_onHead]
    rfl
  have image : ∀ head : ElementHead, resolveImage (.element head cs) =
      .element (CapabilityHandler.media.onHead head) cs := fun head => edit_eq_onHead .media _
  dsimp only
  unfold served
  rw [if_pos (show (Node.element h cs).isElement = true from rfl)]
  dsimp only
  rw [both, image, show (Node.element h cs).tag = h.tag from rfl]
  split <;> rfl

theorem served_renamed (removeStyle removeClass : Bool) {n m : Node} (alike : Renamed exact n m) :
    Renamed exact (served removeStyle removeClass n) (served removeStyle removeClass m) := by
  cases alike with
  | text leaves => exact .text leaves
  | @element h k cs ds heads inside =>
    have front := onHead_renamed .layout (onHead_renamed (.style removeStyle removeClass) heads)
    rw [served_element, served_element, heads.tag]
    refine .element ?_ inside
    split
    · exact onHead_renamed .media front
    · exact front

end Passes

namespace Node

theorem joinable_renamed (exact : Prop) : Joinable (TextLeaf.Renamed exact) where
  content same := same.content
  annotations same := same.annotations
  sameMarks one other := by rw [TextLeaf.sameMarks, TextLeaf.sameMarks, one.marks, other.marks]
  refilled same content annotations := ⟨rfl, same.marks, same.styles, rfl, same.classes⟩

theorem kindred_renamed (exact : Prop) : Kindred (TextLeaf.Renamed exact) (Renamed exact) where
  joins := joinable_renamed exact
  marker _ := ⟨rfl, rfl, rfl, rfl, fun _ => rfl⟩
  texts := .text
  parts alike := by
    cases alike with
    | text leaves => exact .inl ⟨_, _, rfl, rfl, leaves⟩
    | element _ _ => exact .inr ⟨nofun, nofun⟩
  hasSourceTag alike tag member := by
    cases alike with
    | text _ => rfl
    | element heads _ => exact heads.origin tag (List.mem_cons_of_mem _ member)
  children alike := by
    cases alike with
    | element _ inside => exact inside
    | text _ => exact .nil
  withChildren alike inside := by
    cases alike with
    | element heads _ => exact .element heads inside
    | text leaves => exact .text leaves

theorem Renamed.needsWrapper {exact : Prop} {n m : Node} (alike : Renamed exact n m) :
    Passes.needsWrapper n = Passes.needsWrapper m := by
  cases alike with
  | element heads _ => simp [Passes.needsWrapper, role?, head?, heads.role, Node.isElement, kind]
  | text _ => rfl

end Node

structure AstHead.Respelled (h k : AstHead) : Prop where
  kind : h.kind = k.kind
  data : h.data = k.data
  attributes : h.attributes = k.attributes
  blank : h.blank = k.blank
  names : h.isTag = true → Tag.Respelled h.tagName k.tagName

def AstHead.SameClasses (h k : AstHead) : Prop := h.isTag = true → Tag.SameClasses h.tagName k.tagName

theorem AstHead.Respelled.flagged {h k : AstHead} (same : Respelled h k) :
    Respelled (flagBlank h) (flagBlank k) := by
  have isText : h.isText = k.isText := by rw [AstHead.isText, same.kind]; rfl
  have data : h.dataText = k.dataText := by rw [AstHead.dataText, same.data]; rfl
  unfold flagBlank
  rw [← isText, ← data]
  split
  · exact ⟨same.kind, same.data, same.attributes, rfl, same.names⟩
  · exact same

theorem AstHead.SameClasses.flagged {h k : AstHead} (same : SameClasses h k) :
    SameClasses (flagBlank h) (flagBlank k) := by
  have unnamed : ∀ h : AstHead, (flagBlank h).isTag = h.isTag ∧ (flagBlank h).tagName = h.tagName := by
    intro h
    unfold flagBlank
    split <;> exact ⟨rfl, rfl⟩
  unfold SameClasses
  rw [(unnamed h).1, (unnamed h).2, (unnamed k).2]
  exact same

theorem Ast.Twins.imp {R S : AstHead → AstHead → Prop} {a b : Ast} (twins : a.Twins R b)
    (each : ∀ h k, R h k → S h k) : a.Twins S b := by
  induction a using Ast.induct generalizing b with
  | node h children ih =>
    cases twins with
    | node heads inside =>
      refine .node (each _ _ heads) ?_
      exact ((List.forall₂_and_left _ _).mpr ⟨ih, inside⟩).imp fun c d fact => fact.1 fact.2

namespace Passes
variable {exact : Prop} {mode : StyleMode} {h k : AstHead}

structure RespelledAs (exact : Prop) (mode : StyleMode) (h k : AstHead) : Prop where
  heads : h.Respelled k
  classes : exact → mode = .cssClass → h.SameClasses k

structure HandedAlike (exact : Prop) (i j : Inherited) : Prop where
  marks : i.marks = j.marks
  styles : i.styles = j.styles
  classes : exact → i.classes = j.classes

theorem meaning_respelled (same : h.Respelled k) : meaning h = meaning k := by
  have data : h.dataText = k.dataText := by rw [AstHead.dataText, same.data]; rfl
  unfold meaning
  rw [← same.kind, ← same.blank, ← data]
  cases kind : h.kind with
  | tag =>
    have names := same.names (by rw [AstHead.isTag, kind])
    simp only [Meaning.ofTag, names.mapping, names.formatting]
  | _ => rfl

theorem notes_unnamed (mode : StyleMode) (h : AstHead) (m : TagMapping) (target : String) :
    unnamedNotes (head mode h m target).annotations = .record [("source_attrs", .record h.attributes)] := by
  simp [head, unnamedNotes, Value.mapRecord]

theorem unclassed_props (mode : StyleMode) (name other : String) (m : TagMapping) :
    unclassedTable (props mode name m) = unclassedTable (props mode other m) := by
  cases mode with
  | inline => rfl
  | cssClass =>
    have none : ∀ name, unclassedTable (props .cssClass name m) = [] := by
      intro name
      unfold props
      dsimp only
      split <;> rfl
    rw [none, none]

theorem head_renamed {m : TagMapping} {target : String} (same : RespelledAs exact mode h k)
    (tag : h.isTag = true) :
    ElementHead.Renamed exact (head mode h m target) (head mode k m target) := by
  have names := same.heads.names tag
  refine ⟨rfl, rfl, rfl, ?_, fun name member => ?_, ?_, fun whole => ?_⟩
  · rw [notes_unnamed, notes_unnamed, same.heads.attributes]
  · have origin : ∀ h : AstHead, (head mode h m target).origin.isText name = (h.tagName == name) :=
      fun h => hasSourceTag_head mode h m target [] name
    rw [origin, origin, names.structural name member]
  · exact congrArg Value.record (unclassed_props mode h.tagName k.tagName m)
  · show Value.record (props mode h.tagName m) = Value.record (props mode k.tagName m)
    cases mode with
    | inline => rfl
    | cssClass =>
      have classes := (Tag.classes_alike names.same (same.classes whole rfl tag)).1
      unfold props
      rw [classes]

theorem within_handedAlike {i j : Inherited} {m : TagMapping} (handed : HandedAlike exact i j)
    (same : RespelledAs exact mode h k) (tag : h.isTag = true) :
    HandedAlike exact (i.within mode h.tagName m) (j.within mode k.tagName m) := by
  cases mode with
  | inline =>
    have styles := congrArg (fun styles => Table.update styles (Style.inheritable m.defaultStyle)) handed.styles
    exact ⟨handed.marks, styles, handed.classes⟩
  | cssClass =>
    rw [within_cssClass, within_cssClass]
    refine ⟨handed.marks, handed.styles, fun whole => ?_⟩
    have classes := (Tag.classes_alike (same.heads.names tag).same (same.classes whole rfl tag)).2
    dsimp only
    rw [classes, handed.classes whole]

theorem parallel_renamed (exact : Prop) (mode : StyleMode) :
    Parallel (Node.Renamed exact) mode mode (RespelledAs exact mode) (HandedAlike exact) where
  meaning same := meaning_respelled same.heads
  element same tag _ inside := .element (head_renamed same tag) inside
  text handed content source :=
    .text ⟨rfl, congrArg Inherited.unlessEmpty handed.marks, congrArg Inherited.unlessEmpty handed.styles,
      rfl, fun whole => by rw [Inherited.leaf, Inherited.leaf, handed.classes whole]⟩
  withMark handed mark :=
    ⟨congrArg (fun marks => Table.set marks mark (Value.flag true)) handed.marks, handed.styles, handed.classes⟩
  within handed same tag _ := within_handedAlike handed same tag
  merged := (kindred_renamed exact).merged
  needsWrapper := Renamed.needsWrapper

end Passes

namespace Transformer
variable {ε σ : Type} {t : Transformer ε σ} {a b : Ast}

theorem converted_renamed {exact : Prop} (t : Transformer ε σ)
    (twins : a.Twins (RespelledAs exact t.options.styleMode) b) :
    Renamed exact (t.converted a) (t.converted b) := by
  refine .element ⟨rfl, rfl, rfl, rfl, fun _ _ => rfl, rfl, fun _ => rfl⟩ ?_
  refine (parallel_renamed exact t.options.styleMode).becomes (twins.mapHeads flagBlank ?_)
    ⟨rfl, rfl, fun _ => rfl⟩
  exact fun h k same => ⟨same.heads.flagged, fun whole css => (same.classes whole css).flagged⟩

-- Markup with tag names in other spellings gives the same forest up to the names and the classes, and
-- with the same classes in the inline mode or when these are those of the same tags.
theorem respelled_alike (t : Transformer ε σ) (unchanged : t.plugins = builtin)
    (top : a.head.kind = .root) (twins : a.Twins AstHead.Respelled b) (source other : String)
    (shared given : σ) :
    Paired (List.Forall₂ (Renamed (t.options.styleMode = .inline ∨
        a.Twins (fun h k => h.Respelled k ∧ h.SameClasses k) b)))
      (t.complete.exec (t.start a source shared)).1 (t.complete.exec (t.start b other given)).1 := by
  have root : b.head.kind = .root := by
    cases twins with
    | node heads _ => exact heads.kind.symm.trans top
  generalize same : (t.options.styleMode = .inline ∨
    a.Twins (fun h k => h.Respelled k ∧ h.SameClasses k) b) = exact
  have both : a.Twins (RespelledAs exact t.options.styleMode) b := by
    subst same
    by_cases whole : a.Twins (fun h k => h.Respelled k ∧ h.SameClasses k) b
    · exact whole.imp fun h k fact => ⟨fact.1, fun _ _ => fact.2⟩
    · refine twins.imp fun h k fact => ⟨fact, fun known css => ?_⟩
      rcases known with inline | alike
      · rw [inline] at css
        cases css
      · exact absurd alike whole
  refine complete_related (fun alike => ⟨?_, (kindred_renamed exact).children alike⟩) unchanged unchanged
    top root (twins.within_iff maxDepth) (fun first second => ?_) source other shared given
  · cases alike <;> rfl
  · exact grown_kindred (kindred_renamed exact) first second (served_renamed _ _)
      (converted_renamed t both)

theorem paragraph_respelled :
    usual.plugins = builtin ∧ (tagged "p").head.kind = .root ∧
      (tagged "p").Twins AstHead.Respelled (tagged " P\n") ∧
      ∃ nodes others, (usual.complete.exec (usual.start (tagged "p") "" ())).1 = .ok nodes ∧
        (usual.complete.exec (usual.start (tagged " P\n") "" ())).1 = .ok others ∧ nodes.length = 1 ∧
        List.Forall₂ (Renamed (usual.options.styleMode = .inline ∨
          (tagged "p").Twins (fun h k => h.Respelled k ∧ h.SameClasses k) (tagged " P\n"))) nodes others := by
  have names : Tag.Respelled "p" " P\n" := ⟨by decide, .inr (.inr ⟨by decide, by decide⟩)⟩
  have twins : (tagged "p").Twins AstHead.Respelled (tagged " P\n") :=
    .node ⟨rfl, rfl, rfl, rfl, nofun⟩ (.cons (.node ⟨rfl, rfl, rfl, rfl, fun _ => names⟩
      (.cons (.node ⟨rfl, rfl, rfl, rfl, nofun⟩ .nil) .nil)) .nil)
  have above : Within 2 (usual.converted (tagged "p")) := by
    obtain ⟨h, leaf, same⟩ : ∃ h leaf, usual.converted (tagged "p") =
        Node.root.withChildren [.element h [.text leaf]] := ⟨_, _, rfl⟩
    rw [same]
    simp [Within, Branching.children, Node.children, Node.root, Node.withChildren]
  have none : ¬ItemAt maxDepth (usual.converted (tagged "p")) := fun item => by
    have low : maxDepth ≤ 2 := itemAt_le above item
    exact absurd low (by decide)
  obtain ⟨nodes, fine⟩ := complete_ok usual_plugins (show (tagged "p").head.kind = .root from rfl)
    (tagged_within "p") none "" ()
  have told : (usual.grown "" (usual.converted (tagged "p"))).map
      (fun root => (resultOf root).length) = .ok 1 := rfl
  obtain ⟨root, grown, same⟩ := grown_of_delivered usual_plugins fine
  rw [grown, Except.map, ← same] at told
  have alike := respelled_alike usual usual_plugins (show (tagged "p").head.kind = .root from rfl) twins
    "" "" () ()
  rw [fine] at alike
  cases second : (usual.complete.exec (usual.start (tagged " P\n") "" ())).1 with
  | error f =>
    rw [second] at alike
    cases alike
  | ok others =>
    rw [second] at alike
    cases alike with
    | ok related => exact ⟨usual_plugins, rfl, twins, nodes, others, fine, rfl, Except.ok.inj told, related⟩

def unchecked : Transformer Empty Unit := { usual with options := { usual.options with validate := .flag false } }

theorem blankedBold_unmarked :
    (unchecked.plugins = builtin ∧ (tagged "b").head.kind = .root ∧
      Tag.canonical "b\u00a0" = Tag.canonical "b" ∧ Tag.mapping? "b\u00a0" = Tag.mapping? "b") ∧
      ∃ nodes others, (unchecked.complete.exec (unchecked.start (tagged "b") "" ())).1 = .ok nodes ∧
        (unchecked.complete.exec (unchecked.start (tagged "b\u00a0") "" ())).1 = .ok others ∧
        nodes.map Node.isElement = [false] ∧ others.map Node.isElement = [true] := by
  have marked : (unchecked.grown "" (unchecked.converted (tagged "b")) >>= unchecked.delivered).map
      (fun nodes => nodes.map Node.isElement) = .ok [false] := rfl
  have wrapped : (unchecked.grown "" (unchecked.converted (tagged "b\u00a0")) >>= unchecked.delivered).map
      (fun nodes => nodes.map Node.isElement) = .ok [true] := rfl
  obtain ⟨nodes, fine, text⟩ := ok_of_map marked
  obtain ⟨others, given, element⟩ := ok_of_map wrapped
  rw [← complete_of_within unchecked usual_plugins (tagged_within "b") "" ()] at fine
  rw [← complete_of_within unchecked usual_plugins (tagged_within "b\u00a0") "" ()] at given
  exact ⟨⟨usual_plugins, rfl, by decide, rfl⟩, nodes, others, fine, given, text, element⟩

end Transformer
end SemanticMarkup
