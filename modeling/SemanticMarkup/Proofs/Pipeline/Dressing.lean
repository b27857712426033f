import SemanticMarkup.Proofs.Pipeline.Lasting

namespace SemanticMarkup
open Walk Passes Dispatch

-- A node from an image tag is an image.
def Node.Imaged (n : Node) : Prop := n.hasSourceTag Tag.image = true → n.tag.isText "image" = true

namespace Passes
variable {ε σ : Type}

def onElements (handlers : List CapabilityHandler) (n : Node) : Node :=
  handlers.foldl (fun m h => h.onElement m) n

theorem shallow_onElement (h : CapabilityHandler) : Shallow h.onElement where
  children n := by
    unfold CapabilityHandler.onElement
    split
    · exact (shallow_edit h).children n
    · rfl
  withChildren n kids := by
    have same : (n.withChildren kids).isElement = n.isElement := by cases n <;> rfl
    unfold CapabilityHandler.onElement
    rw [same]
    split
    · exact (shallow_edit h).withChildren n kids
    · rfl

theorem shallow_onElements (handlers : List CapabilityHandler) : Shallow (onElements handlers) :=
  Shallow.foldl fun h _ => shallow_onElement h

theorem onElements_append (first second : List CapabilityHandler) :
    onElements (first ++ second) = onElements second ∘ onElements first := by
  funext n
  exact List.foldl_append

theorem edit_eq_mapHead (h : CapabilityHandler) (n : Node) :
    ∃ f, h.edit n = n.mapHead f ∧
      ∀ head, (f head).tag = head.tag ∧ (f head).annotations = head.annotations ∧
        (f head).role = head.role := by
  have props : ∀ change, ∃ f, onProps change n = n.mapHead f ∧
      ∀ head, (f head).tag = head.tag ∧ (f head).annotations = head.annotations ∧
        (f head).role = head.role := by
    intro change
    refine ⟨_, rfl, fun head => ?_⟩
    split <;> exact ⟨rfl, rfl, rfl⟩
  cases h with
  | style removeStyle removeClass => exact props fun attributes props =>
      let props := if removeStyle then props else addStyle attributes props
      if removeClass then props else addClasses attributes props
  | layout => exact ⟨_, rfl, fun head => ⟨rfl, rfl, rfl⟩⟩
  | media =>
    show ∃ f, resolveImage n = _ ∧ _
    unfold resolveImage
    split
    · exact props imageProps
    · exact ⟨id, by cases n <;> rfl, fun head => ⟨rfl, rfl, rfl⟩⟩

theorem hasSourceTag_edit (h : CapabilityHandler) (n : Node) (tag : String) :
    (h.edit n).hasSourceTag tag = n.hasSourceTag tag := by
  obtain ⟨f, same, kept⟩ := edit_eq_mapHead h n
  rw [same]
  cases n <;> simp [Node.mapHead, Node.hasSourceTag, Node.sourceTag, Node.annotations,
    Node.rawAnnotations, kept, Node.isElement, Node.kind]

theorem tag_edit (h : CapabilityHandler) (n : Node) : (h.edit n).tag = n.tag := by
  obtain ⟨f, same, kept⟩ := edit_eq_mapHead h n
  rw [same]
  cases n <;> simp [Node.mapHead, Node.tag, Node.head?, kept]

theorem imaged_onElements (handlers : List CapabilityHandler) {n : Node} (imaged : n.Imaged) :
    (onElements handlers n).Imaged := by
  induction handlers generalizing n with
  | nil => exact imaged
  | cons h rest ih =>
    have first : (h.onElement n).Imaged := by
      unfold CapabilityHandler.onElement
      split
      · rw [Node.Imaged, hasSourceTag_edit, tag_edit]
        exact imaged
      · exact imaged
    exact ih first

def Stands (g : Registration (HandlerName ε)) (h : CapabilityHandler) : Prop :=
  g.handler = .builtin h ∧ g.key = h.key

theorem builtin_of_stands {done : List (Registration (HandlerName ε))}
    {handlers : List CapabilityHandler} (stand : List.Forall₂ Stands done handlers) :
    ∀ g ∈ done, Builtin g := by
  induction stand with
  | nil => simp
  | cons one _ ih => exact List.forall_mem_cons.mpr ⟨⟨_, one⟩, ih⟩

theorem onElement_of_unserved {g : Registration (HandlerName ε)} {h : CapabilityHandler} {n m : Node}
    (stands : Stands g h) (unserved : g.serves n = false) (kind : m.isElement = n.isElement)
    (image : m.hasSourceTag Tag.image = true → n.tag.isText "image" = true) : h.onElement m = m := by
  unfold CapabilityHandler.onElement
  rw [kind]
  cases element : n.isElement with
  | false => rfl
  | true =>
    rw [Registration.serves, if_pos element, stands.2, Bool.or_eq_false_iff] at unserved
    cases h with
    | media =>
      have other : m.hasSourceTag Tag.image ≠ true := fun image' => by
        have served := image image'
        rw [show CapabilityHandler.media.key = "image" from rfl, served] at unserved
        exact absurd unserved.2 (by decide)
      exact if_neg other
    | _ => simp [CapabilityHandler.key] at unserved

-- The handlers of a shared walk make of a node what their own passes make of it one by one. That
-- images are served by their tag, but edited by their source tag, is no difference where images
-- are images.
theorem batchEdit_eq {done : List (Registration (HandlerName ε))} {handlers : List CapabilityHandler}
    (stand : List.Forall₂ Stands done handlers) {n : Node} (imaged : n.Imaged) :
    batchEdit done n = onElements handlers n := by
  have run : ∀ m : Node, m.isElement = n.isElement →
      (m.hasSourceTag Tag.image = true → n.tag.isText "image" = true) →
        (done.filter fun g => g.serves n).foldl (fun m g => editBy g m) m = onElements handlers m := by
    induction stand with
    | nil => exact fun m _ _ => rfl
    | @cons g h _ _ one _ ih =>
      intro m kind image
      show _ = onElements _ (h.onElement m)
      cases serves : g.serves n with
      | false =>
        rw [List.filter_cons, if_neg (by simp [serves]), onElement_of_unserved one serves kind image]
        exact ih m kind image
      | true =>
        have element : m.isElement = true := kind.trans (serves_element ⟨h, one⟩ serves)
        have edited : editBy g m = h.edit m := by rw [editBy, one.1]
        rw [List.filter_cons, if_pos serves, List.foldl_cons, edited, CapabilityHandler.onElement,
          if_pos element]
        refine ih _ ((isElement_edit h m).trans kind) ?_
        rw [hasSourceTag_edit]
        exact image
  exact run n rfl imaged

theorem lasting_imaged : Lasting Node.Imaged where
  filled here _ := here
  joined _ _ := nofun
  marker _ _ := nofun

theorem imaged_editAll (handlers : List CapabilityHandler) {n : Node} (all : Everywhere Node.Imaged n) :
    Everywhere Node.Imaged (editAll (onElements handlers) n).1 := by
  refine lasting_imaged.edited (fun n all => .intro (imaged_onElements handlers all.here) ?_) all
  rw [show Branching.children (onElements handlers n) = n.children from
    (shallow_onElements handlers).children n]
  exact all.inside

end Passes
end SemanticMarkup
