import SemanticMarkup.Proofs.Likeness.Attributes
import SemanticMarkup.Proofs.Pipeline.Batching
import SemanticMarkup.Proofs.Validity.Selection

namespace SemanticMarkup
open Walk Passes Node

def OfHead (P : ElementHead → Prop) (n : Node) : Prop := ∀ head, n.head? = some head → P head

theorem lasting_ofHead (P : ElementHead → Prop) : Lasting (OfHead P) where
  filled here _ := here
  joined _ _ := nofun
  marker _ _ := nofun

theorem everywhere_ofHead_element {P : ElementHead → Prop} {head : ElementHead} {kids : List Node} :
    Everywhere (OfHead P) (.element head kids) ↔ P head ∧ ∀ c ∈ kids, Everywhere (OfHead P) c := by
  rw [everywhere_element]
  refine and_congr_left fun _ => ⟨fun here => here head rfl, ?_⟩
  rintro here _ ⟨⟩
  exact here

theorem everywhere_mapHead {P Q : ElementHead → Prop} {f : ElementHead → ElementHead}
    (turns : ∀ head, P head → Q (f head)) {levels : Nat} {n : Node} (all : Everywhere (OfHead P) n)
    (done : (editWithin (mapHead f) levels n).2 = true) :
    Everywhere (OfHead Q) (editWithin (mapHead f) levels n).1 := by
  induction levels generalizing n with
  | zero => cases done
  | succ levels ih =>
    have each := (editWithin_done _ levels n).mp done
    rw [editWithin_all each]
    cases n with
    | element head kids =>
      obtain ⟨here, inside⟩ := everywhere_ofHead_element.mp all
      refine everywhere_ofHead_element.mpr ⟨turns head here, ?_⟩
      intro c member
      obtain ⟨b, old, rfl⟩ := List.mem_map.mp member
      exact ih (inside b old) (each b old)
    | barren head given =>
      refine .of_childless rfl ?_
      rintro _ ⟨⟩
      exact turns head (all.here head rfl)
    | text _ => exact .of_childless rfl nofun
    | alien _ => exact .of_childless rfl nofun

namespace Passes

def CapabilityHandler.onHead : CapabilityHandler → ElementHead → ElementHead
  | .style removeStyle removeClass, head =>
    { head with props := head.props.mapRecord fun props =>
        let props := if removeStyle then props else addStyle head.attributes props
        if removeClass then props else addClasses head.attributes props }
  | .layout, head => { head with capabilities := head.capabilities.orElse defaultCapabilities }
  | .media, head =>
    if head.origin.isText Tag.image then
      { head with props := head.props.mapRecord (imageProps head.attributes) }
    else head

theorem onProps_eq_mapHead (change : Table Value → Table Value → Table Value) (n : Node) :
    onProps change n =
      n.mapHead fun head => { head with props := head.props.mapRecord (change head.attributes) } := by
  cases n with
  | element head kids => exact onProps_element change head kids
  | barren head given =>
    obtain ⟨tag, props, role, capabilities, annotations⟩ := head
    cases props <;> rfl
  | _ => rfl

theorem edit_eq_onHead (h : CapabilityHandler) (n : Node) : h.edit n = n.mapHead h.onHead := by
  cases h with
  | style removeStyle removeClass =>
    exact onProps_eq_mapHead (fun attributes props =>
      let props := if removeStyle then props else addStyle attributes props
      if removeClass then props else addClasses attributes props) n
  | layout => rfl
  | media =>
    show resolveImage n = _
    unfold resolveImage
    rw [onProps_eq_mapHead]
    cases n with
    | element head kids =>
      show (if head.origin.isText Tag.image = true then Node.element _ kids else _) = .element (ite _ _ _) kids
      split <;> rfl
    | barren head given =>
      show (if head.origin.isText Tag.image = true then Node.barren _ given else _) = .barren (ite _ _ _) given
      split <;> rfl
    | _ => split <;> rfl

theorem onElement_eq_onHead (h : CapabilityHandler) (n : Node) : h.onElement n = n.mapHead h.onHead := by
  unfold CapabilityHandler.onElement
  split
  · exact edit_eq_onHead h n
  · rename_i other
    cases n with
    | element _ _ => exact absurd rfl other
    | barren _ _ => exact absurd rfl other
    | _ => rfl

def dressed (handlers : List CapabilityHandler) (head : ElementHead) : ElementHead :=
  handlers.foldl (fun head h => h.onHead head) head

theorem onElements_eq_dressed (handlers : List CapabilityHandler) (n : Node) :
    onElements handlers n = n.mapHead (dressed handlers) := by
  induction handlers generalizing n with
  | nil => cases n <;> rfl
  | cons h rest ih =>
    show onElements rest (h.onElement n) = _
    rw [ih, onElement_eq_onHead]
    cases n <;> rfl

theorem dressed_inside {P : ElementHead → Prop} {handlers : List CapabilityHandler} {n : Node}
    (deep : Within maxDepth n) (inside : ∀ c ∈ n.children, Everywhere (OfHead P) c) :
    ∀ c ∈ (editAll (onElements handlers) n).1.children,
      Everywhere (OfHead fun made => ∃ old, P old ∧ made = dressed handlers old) c := by
  have shallow := shallow_onElements handlers
  have same : onElements handlers = mapHead (dressed handlers) := funext (onElements_eq_dressed handlers)
  have kids : (editAll (onElements handlers) n).1.children =
      n.children.map fun c => (editWithin (onElements handlers) maxDepth c).1 := by
    rw [editAll, shallow.editWithin_succ deep (Nat.lt_succ_self maxDepth)]
    refine Reshaping.children_withChildren (onElements handlers n) _ ?_
    rw [List.length_map]
    exact congrArg List.length (shallow.children n).symm
  intro c member
  rw [kids] at member
  obtain ⟨b, old, rfl⟩ := List.mem_map.mp member
  obtain ⟨fewer, lower, low⟩ := deep.child old
  have done := (shallow.done low (show fewer < maxDepth by omega)).1
  rw [same] at done ⊢
  exact everywhere_mapHead (fun head here => ⟨head, here, rfl⟩) (inside b old) done

theorem annotations_dressed (handlers : List CapabilityHandler) (head : ElementHead) :
    (dressed handlers head).annotations = head.annotations := by
  induction handlers generalizing head with
  | nil => rfl
  | cons h rest ih =>
    have first : (h.onHead head).annotations = head.annotations := by
      cases h with
      | media =>
        unfold CapabilityHandler.onHead
        dsimp only
        split <;> rfl
      | _ => rfl
    exact (ih (h.onHead head)).trans first

theorem attributes_dressed (handlers : List CapabilityHandler) (mode : StyleMode) (h : AstHead)
    (m : TagMapping) (target : String) :
    (dressed handlers (head mode h m target)).attributes = h.attributes := by
  rw [ElementHead.attributes, annotations_dressed]
  exact attributes_head mode h m target

theorem origin_dressed (handlers : List CapabilityHandler) (mode : StyleMode) (h : AstHead)
    (m : TagMapping) (target : String) :
    (dressed handlers (head mode h m target)).origin = .text h.tagName := by
  rw [ElementHead.origin, annotations_dressed]
  simp [head, Value.record?, Table.getD, Table.get?_cons]

-- The head of an element that conversion made of markup with this property.
def HeadOf (K : AstHead → Prop) (mode : StyleMode) (made : ElementHead) : Prop :=
  ∃ h m target, K h ∧ Tag.mapping? h.tagName = some m ∧ made = head mode h m target

def MadeOf (K : AstHead → Prop) (mode : StyleMode) (handlers : List CapabilityHandler)
    (made : ElementHead) : Prop :=
  ∃ old, HeadOf K mode old ∧ made = dressed handlers old

theorem becomes_headOf {K : AstHead → Prop} (mode : StyleMode) {a : Ast}
    (heads : Everywhere (fun c : Ast => K c.head) a) (i : Inherited) :
    ∀ n ∈ becomes mode i a, Everywhere (OfHead (HeadOf K mode)) n := by
  refine everywhere_converted_from (J := fun _ => True) mode (fun _ => (lasting_ofHead _).merged)
    (fun _ _ _ _ => nofun) (fun _ _ _ _ _ => trivial) (fun _ _ _ _ => trivial) ?_ ?_ heads i trivial
  · rintro h m mark inside known mapped _ _ _ ⟨⟩
    exact ⟨h, m, "text", known, mapped, rfl⟩
  · rintro h m kids known mapped _ _ _ ⟨⟩
    exact ⟨h, m, m.target, known, mapped, rfl⟩

end Passes

namespace Transformer
variable {ε σ : Type} {t : Transformer ε σ} {source : String} {shared : σ} {a b : Ast} {m : Node}
  {K : AstHead → Prop}

theorem ofHead_resultOf {P : ElementHead → Prop} {root : Node}
    (inside : ∀ c ∈ root.children, Everywhere (OfHead P) c) :
    ∀ n ∈ resultOf root, Everywhere (OfHead P) n := by
  intro n member
  unfold resultOf at member
  split at member
  · exact inside n member
  · rename_i other
    rw [List.mem_singleton] at member
    subst member
    cases n with
    | text _ => exact .of_childless rfl nofun
    | alien _ => exact .of_childless rfl nofun
    | _ => exact absurd rfl other

theorem structured_headOf (kept : ∀ h, K h → K (flagBlank h))
    (heads : Everywhere (fun c : Ast => K c.head) a)
    (fine : (markupStep flagAst >=> t.structuringSteps source) (a, .root) = .ok (b, m)) :
    ∀ c ∈ m.children, Everywhere (OfHead (HeadOf K t.options.styleMode)) c := by
  obtain ⟨nodes, merged, listed, normal, given, joined, marked, flat⟩ := structuring_ok fine
  obtain ⟨_, rfl⟩ := finished_ok_iff.mp normal
  obtain ⟨_, rfl⟩ := finished_ok_iff.mp joined
  obtain ⟨_, rfl⟩ := finished_ok_iff.mp marked
  obtain ⟨_, rfl⟩ := finished_ok_iff.mp flat
  have lasting := lasting_ofHead (HeadOf K t.options.styleMode)
  have known : Everywhere (fun c : Ast => K c.head) (editAll flagAst a).1 := by
    refine editWithin_everywhere (fun c all => ?_) (fun c kids here _ => ?_) (maxDepth + 1) heads
    · exact .intro (kept c.head all.here) all.inside
    · cases c
      exact here
  have filled : ∀ c ∈ (Node.root.withChildren nodes).children,
      Everywhere (OfHead (HeadOf K t.options.styleMode)) c := by
    rw [(convert_ok t.options.styleMode _ .nothing 0 given).1]
    exact becomes_headOf t.options.styleMode known .nothing
  have first := lasting.edited_inside lasting.mergeChildren (fun _ => lasting.mergeChildren_inside) filled
  have second := lasting.edited_inside lasting.markListsIn (fun _ => lasting.markListsIn_inside) first
  exact lasting.edited_inside lasting.flattenIn (fun _ => flattenIn_inside) second

theorem reaches_dressed {handlers : List CapabilityHandler}
    (others : ∀ phase, phase ≠ .capability →
      Resolve.inPhase t.plugins phase = Resolve.inPhase builtin phase)
    (offers : List.Forall₂ (Offers t.options.metadata) (Resolve.inPhase t.plugins .capability) handlers) :
    Reaches t source shared t.run a .root
      ((markupStep flagAst >=> t.structuringSteps source >=> fun reached : Ast × Node =>
        .ok (reached.1, (editAll (onElements handlers) reached.2).1)) (a, .root)) := by
  refine reaches_phases_by others fun b m fine ctx stage => ?_
  obtain ⟨inside, imaged⟩ := structured_dressable fine
  have able : Dressable t.options.metadata ctx :=
    ⟨stage.metadata, by rwa [stage.root], by rwa [stage.root]⟩
  obtain ⟨after, ran, done⟩ := exec_phase t.extras offers Dispatch.Registry.holds_empty .nil able
  refine ⟨after, ran, ?_, ?_⟩
  · rw [← stage.setting, ← Setting.idle_of_none stage.collecting,
      ← Setting.idle_of_none (done.collecting stage.collecting)]
    exact done.setting
  · rw [done.root, stage.root, List.nil_append]

theorem result_headOf {handlers : List CapabilityHandler}
    (others : ∀ phase, phase ≠ .capability →
      Resolve.inPhase t.plugins phase = Resolve.inPhase builtin phase)
    (offers : List.Forall₂ (Offers t.options.metadata) (Resolve.inPhase t.plugins .capability) handlers)
    (kept : ∀ h, K h → K (flagBlank h)) (heads : Everywhere (fun c : Ast => K c.head) a)
    {nodes : List Node} (fine : (t.complete.exec (t.start a source shared)).1 = .ok nodes) :
    ∀ n ∈ nodes, Everywhere (OfHead (MadeOf K t.options.styleMode handlers)) n := by
  rw [complete_of_reached (reaches_dressed others offers)] at fine
  obtain ⟨⟨_, root⟩, reached, delivered⟩ := ok_of_bind fine
  obtain ⟨_, _, checked⟩ := ok_of_bind delivered
  obtain ⟨flagged, first, later⟩ := ok_of_bind reached
  obtain ⟨⟨b, m⟩, second, last⟩ := ok_of_bind later
  cases last
  have structured : (markupStep flagAst >=> t.structuringSteps source) (a, .root) = .ok (b, m) := by
    show (markupStep flagAst (a, .root) >>= t.structuringSteps source) = _
    rw [first]
    exact second
  rw [result_of_checked checked]
  exact ofHead_resultOf (dressed_inside (structured_dressable structured).1
    (structured_headOf kept heads structured))

end Transformer
end SemanticMarkup
