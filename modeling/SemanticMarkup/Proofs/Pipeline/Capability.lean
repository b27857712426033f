import SemanticMarkup.Proofs.Dispatch.Calls
import SemanticMarkup.Proofs.Dispatch.Visit
import SemanticMarkup.Proofs.Tree.Shallow
import SemanticMarkup.Transform

namespace SemanticMarkup.Passes
open Dispatch Walk
variable {ε σ : Type}

def CapabilityHandler.key : CapabilityHandler → String
  | .media => "image"
  | _ => elementKey

theorem CapabilityHandler.key_ne_textKey (h : CapabilityHandler) : h.key ≠ textKey := by
  cases h with
  | media => exact (by decide : "image" ≠ textKey)
  | _ => exact (by decide : elementKey ≠ textKey)

def CapabilityHandler.onElement (h : CapabilityHandler) (n : Node) : Node :=
  if n.isElement then h.edit n else n

def Builtin (g : Registration (HandlerName ε)) : Prop :=
  ∃ h : CapabilityHandler, g.handler = .builtin h ∧ g.key = h.key

def editBy (g : Registration (HandlerName ε)) : Node → Node :=
  match g.handler with
  | .builtin h => h.edit
  | .extra _ => id

def batchEdit (done : List (Registration (HandlerName ε))) (n : Node) : Node :=
  (done.filter fun g => g.serves n).foldl (fun m g => editBy g m) n

theorem perform_run {κ : Type} (h : CapabilityHandler) {n : Node} (element : n.isElement = true)
    (s : Setting κ σ) : (h.perform : Handler κ σ).run.run (n, s) = (.ok none, h.edit n, s) := by
  cases h with
  | style removeStyle removeClass =>
    show (ite ((!n.isElement) = true) _ _ : StateM (Node × Setting κ σ) _) (n, s) = _
    rw [if_neg (by simp [element])]
    rfl
  | _ => rfl

theorem isElement_mapHead (f : ElementHead → ElementHead) (n : Node) :
    (n.mapHead f).isElement = n.isElement := by
  cases n <;> rfl

theorem isElement_edit (h : CapabilityHandler) (n : Node) : (h.edit n).isElement = n.isElement := by
  cases h with
  | style removeStyle removeClass => exact isElement_mapHead _ n
  | layout => exact isElement_mapHead _ n
  | media =>
    simp only [CapabilityHandler.edit, resolveImage]
    split
    · exact isElement_mapHead _ n
    · rfl

theorem shallow_mapHead (f : ElementHead → ElementHead) : Shallow (Node.mapHead f) where
  children := Node.children_mapHead f
  withChildren n kids := by cases n <;> rfl

theorem shallow_onProps (change : Table Value → Table Value → Table Value) :
    Shallow (onProps change) where
  children n := Node.children_mapHead _ n
  withChildren n kids := by cases n <;> rfl

theorem shallow_edit (h : CapabilityHandler) : Shallow h.edit := by
  cases h with
  | style removeStyle removeClass =>
    have props : Shallow (mergeAttributes removeStyle removeClass) := shallow_onProps _
    exact props
  | layout =>
    have heads : Shallow ensureCapabilities := shallow_mapHead _
    exact heads
  | media =>
    have image := shallow_onProps imageProps
    refine ⟨fun n => ?_, fun n kids => ?_⟩
    · show (resolveImage n).children = n.children
      unfold resolveImage
      split
      · exact image.children n
      · rfl
    · show resolveImage (n.withChildren kids) = (resolveImage n).withChildren kids
      unfold resolveImage
      rw [n.hasSourceTag_withChildren]
      split
      · exact image.withChildren n kids
      · rfl

theorem shallow_editBy (g : Registration (HandlerName ε)) : Shallow (editBy g) := by
  unfold editBy
  split
  · exact shallow_edit _
  · exact .nothing

theorem shallow_batchEdit (done : List (Registration (HandlerName ε))) : Shallow (batchEdit done) where
  children n := (Shallow.foldl fun g _ => shallow_editBy g).children n
  withChildren n kids := by
    have same : (fun g : Registration (HandlerName ε) => g.serves (n.withChildren kids)) =
        fun g => g.serves n := by
      funext g
      cases n <;> rfl
    unfold batchEdit
    rw [same]
    exact (Shallow.foldl fun g _ => shallow_editBy g).withChildren n kids

theorem handled_builtin (extras : ε → Handler (HandlerName ε) σ)
    {picked : List (Registration (HandlerName ε))} (builtin : ∀ g ∈ picked, Builtin g) {n : Node}
    (element : n.isElement = true) (s : Setting (HandlerName ε) σ) :
    ∃ t calls, handled (HandlerName.perform extras) picked n s =
        ⟨.ok (), picked.foldl (fun m g => editBy g m) n, t, calls⟩ ∧ t.uncounted = s.uncounted := by
  induction picked generalizing n s with
  | nil => exact ⟨s, [], rfl, rfl⟩
  | cons g rest ih =>
    obtain ⟨h, handler, _⟩ := builtin g List.mem_cons_self
    have edited : editBy g n = h.edit n := by rw [editBy, handler]
    obtain ⟨t, calls, others, same⟩ := ih (fun g member => builtin g (List.mem_cons_of_mem _ member))
      ((isElement_edit h n).trans element) (s.time g.owner)
    refine ⟨t, [⟨g.handler, n⟩] ++ calls, ?_, same.trans (Setting.uncounted_time s g.owner)⟩
    rw [handled, handler, HandlerName.perform, perform_run h element]
    dsimp only [Option.getD]
    rw [others, List.foldl_cons, edited]
    rfl

theorem serves_element {g : Registration (HandlerName ε)} (builtin : Builtin g) {n : Node}
    (serves : g.serves n = true) : n.isElement = true := by
  obtain ⟨h, _, key⟩ := builtin
  cases element : n.isElement with
  | true => rfl
  | false =>
    have other : h.key ≠ textKey := h.key_ne_textKey
    simp [Registration.serves, element, key, other] at serves

theorem batchEdit_of_other {done : List (Registration (HandlerName ε))}
    (builtin : ∀ g ∈ done, Builtin g) {n : Node} (other : n.isElement = false) :
    done.filter (fun g => g.serves n) = [] := by
  refine List.filter_eq_nil_iff.mpr fun g member serves => ?_
  rw [serves_element (builtin g member) serves] at other
  cases other

theorem serves_batch (extras : ε → Handler (HandlerName ε) σ) {r : Registry (HandlerName ε)}
    {done : List (Registration (HandlerName ε))} (holds : r.Holds done)
    (builtin : ∀ g ∈ done, Builtin g) :
    Serves (HandlerName.perform extras) r (batchEdit done) := by
  intro n s
  rw [agrees_handled (HandlerName.perform extras) holds n s]
  dsimp only
  unfold batchEdit
  cases element : n.isElement with
  | false =>
    rw [batchEdit_of_other builtin element]
    exact ⟨s, rfl, rfl⟩
  | true =>
    obtain ⟨t, calls, served, same⟩ := handled_builtin extras
      (fun g member => builtin g (List.mem_filter.mp member).1) element s
    rw [served]
    exact ⟨t, rfl, same⟩

def handlers (removeStyle removeClass : Bool) : Registry (HandlerName ε) where
  byKey := [
    (elementKey, [⟨0, "style-capability", .builtin (.style removeStyle removeClass)⟩,
      ⟨1, "layout-capability", .builtin .layout⟩]),
    ("image", [⟨2, "media-capability", .builtin .media⟩])]
  count := 3
  registrant := none

def handlersDone (removeStyle removeClass : Bool) : List (Registration (HandlerName ε)) :=
  [⟨elementKey, "style-capability", .builtin (.style removeStyle removeClass)⟩,
    ⟨elementKey, "layout-capability", .builtin .layout⟩,
    ⟨"image", "media-capability", .builtin .media⟩]

theorem handlers_hold (removeStyle removeClass : Bool) :
    (handlers removeStyle removeClass : Registry (HandlerName ε)).Holds
      (handlersDone removeStyle removeClass) := by
  refine ⟨rfl, fun key => ?_⟩
  have apart : elementKey ≠ "image" := by decide
  simp only [Registry.entries, handlers, Table.get?_cons, Registration.entries, handlersDone,
    List.zipIdx_cons, List.zipIdx_nil, List.filter_cons, List.filter_nil]
  by_cases every : key = elementKey
  · subst every
    simp [apart.symm, Registration.entry]
  · by_cases image : key = "image"
    · subst image
      simp [apart, apart.symm, Registration.entry]
    · simp [every, image, Ne.symm every, Ne.symm image]

-- What they make of one node. An element is dressed as an image if it had that tag on arrival.
def served (removeStyle removeClass : Bool) (n : Node) : Node :=
  if n.isElement then
    let dressed := ensureCapabilities (mergeAttributes removeStyle removeClass n)
    if n.tag.isText "image" then resolveImage dressed else dressed
  else n

theorem batchEdit_handlers (removeStyle removeClass : Bool) :
    batchEdit (handlersDone removeStyle removeClass : List (Registration (HandlerName ε))) =
      served removeStyle removeClass := by
  funext n
  unfold batchEdit handlersDone served
  cases element : n.isElement with
  | false => simp [Registration.serves, element, elementKey, textKey]
  | true =>
    cases image : n.tag.isText "image" <;>
      simp [Registration.serves, element, image, elementKey, editBy, CapabilityHandler.edit]

theorem shallow_served (removeStyle removeClass : Bool) : Shallow (served removeStyle removeClass) := by
  rw [← @batchEdit_handlers Empty]
  exact shallow_batchEdit _

theorem handlersDone_builtin (removeStyle removeClass : Bool) :
    ∀ g ∈ (handlersDone removeStyle removeClass : List (Registration (HandlerName ε))), Builtin g := by
  simp only [handlersDone, List.mem_cons, List.not_mem_nil, or_false, forall_eq_or_imp, forall_eq]
  exact ⟨⟨_, rfl, rfl⟩, ⟨_, rfl, rfl⟩, ⟨_, rfl, rfl⟩⟩

theorem handlers_serve (extras : ε → Handler (HandlerName ε) σ) (removeStyle removeClass : Bool) :
    Serves (HandlerName.perform extras) (handlers removeStyle removeClass)
      (served removeStyle removeClass) := by
  rw [← @batchEdit_handlers ε]
  exact serves_batch extras (handlers_hold removeStyle removeClass)
    (handlersDone_builtin removeStyle removeClass)

end SemanticMarkup.Passes
