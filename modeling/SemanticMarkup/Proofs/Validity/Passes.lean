import SemanticMarkup.Proofs.Pipeline.Lasting
import SemanticMarkup.Proofs.Validity.Check

namespace SemanticMarkup
open Walk Passes Validate

theorem Node.lasting_proper : Lasting Node.Proper where
  filled {head children kids} here none := by
    have proper : head.Proper children := here
    refine ⟨proper.tag, proper.props, proper.known, fun closed => ?_⟩
    obtain ⟨empty, other⟩ := proper.void closed
    exact ⟨none empty other, other⟩
  joined old new := ⟨TextLeaf.content_join old.content new.content, old.marks⟩
  marker {item leaf rest} part texts := by
    refine ⟨part.content fun first member => (texts first member).content, ?_⟩
    rcases part.marks with none | ⟨first, member, same⟩
    · exact ⟨[], none, by simp [Marks.Named]⟩
    · rw [same]
      exact (texts first member).marks

namespace Passes

theorem flattenIn_within (levels : Nat) (n : Node) (inside : Within levels n) :
    Within levels (flattenIn n) := by
  unfold flattenIn
  split
  · cases n with
    | element head children =>
      cases levels with
      | zero =>
        have none : children = [] := inside
        subst none
        rfl
      | succ levels =>
        intro c member
        obtain ⟨d, old, rfl⟩ := List.mem_map.mp member
        have deep : Within levels d := inside d old
        rcases unwrapped_cases d with same | inner
        · rwa [same]
        · obtain ⟨fewer, rfl, lower⟩ := deep.child inner
          exact lower.succ
    | _ => exact inside
  · exact inside

def Harmless (edit : Node → Node) : Prop :=
  ∀ head children, ∃ changed, edit (.element head children) = .element changed children ∧
    (head.Proper children → changed.Proper children)

theorem harmless_onProps (change : Table Value → Table Value → Table Value) :
    Harmless (onProps change) := by
  intro head children
  refine ⟨_, rfl, fun proper => ?_⟩
  obtain ⟨table, props⟩ := proper.props
  simp only [props]
  exact ⟨proper.tag, ⟨_, rfl⟩, proper.known, proper.void⟩

theorem harmless_ensureCapabilities : Harmless ensureCapabilities := by
  intro head children
  have same := head.capabilities.saysVoid_orElse (show defaultCapabilities.isVoid = false from rfl)
  refine ⟨_, rfl, fun proper => ⟨proper.tag, proper.props, ?_, fun closed => proper.void ?_⟩⟩
  · rw [Limits.foreign?_orElse, proper.known]
  · rwa [← same]

theorem Harmless.comp {first second : Node → Node} (before : Harmless first)
    (after : Harmless second) : Harmless (second ∘ first) := by
  intro head children
  obtain ⟨middle, one, kept⟩ := before head children
  obtain ⟨changed, two, held⟩ := after middle children
  exact ⟨changed, by rw [Function.comp, one, two], fun proper => held (kept proper)⟩

theorem harmless_edit (h : CapabilityHandler) : Harmless h.edit := by
  cases h with
  | style removeStyle removeClass =>
    have props : Harmless (mergeAttributes removeStyle removeClass) := harmless_onProps _
    exact props
  | layout => exact harmless_ensureCapabilities
  | media =>
    intro head children
    show ∃ changed, resolveImage (.element head children) = _ ∧ _
    unfold resolveImage
    split
    · exact harmless_onProps imageProps head children
    · exact ⟨head, rfl, id⟩

theorem harmless_served (removeStyle removeClass : Bool) :
    Harmless (served removeStyle removeClass) := by
  have dressed : Harmless (ensureCapabilities ∘ mergeAttributes removeStyle removeClass) :=
    (harmless_edit (.style removeStyle removeClass)).comp (harmless_edit .layout)
  intro head children
  have element : (Node.element head children).isElement = true := rfl
  unfold served
  rw [if_pos element]
  split
  · exact dressed.comp (harmless_edit .media) head children
  · exact dressed head children

theorem Harmless.proper {edit : Node → Node} (harmless : Harmless edit)
    (texts : ∀ leaf, edit (.text leaf) = .text leaf) (n : Node) (all : Everywhere Node.Proper n) :
    Everywhere Node.Proper (edit n) := by
  cases n with
  | element head children =>
    obtain ⟨changed, same, kept⟩ := harmless head children
    rw [same]
    exact everywhere_element.mpr ⟨kept all.here, all.inside⟩
  | text leaf =>
    rw [texts leaf]
    exact all
  | _ => exact all.here.elim

theorem served_proper (removeStyle removeClass : Bool) (n : Node) (all : Everywhere Node.Proper n) :
    Everywhere Node.Proper (served removeStyle removeClass n) :=
  (harmless_served removeStyle removeClass).proper (fun _ => rfl) n all

theorem target_named {name : String} {m : TagMapping} (mapped : Tag.mapping? name = some m) :
    m.target ≠ "" := by
  have all : ∀ entry ∈ Tag.mappings, entry.2.target ≠ "" := by decide
  unfold Tag.mapping? at mapped
  split at mapped
  · cases mapped
  · exact all _ (Table.mem_of_get? mapped)

theorem mark_named {name mark : String} (formats : Table.get? Tag.formatting name = some mark) :
    mark ∈ markNames := by
  have all : ∀ entry ∈ Tag.formatting, entry.2 ∈ markNames := by decide
  exact all _ (Table.mem_of_get? formats)

theorem head_proper (mode : StyleMode) {h : AstHead} {m : TagMapping} {target : String}
    {kids : List Node} (mapped : Tag.mapping? h.tagName = some m) (named : target ≠ "")
    (holds : m.isVoid = true → kids = []) : (head mode h m target).Proper kids := by
  refine ⟨⟨target, named, rfl⟩, ⟨_, rfl⟩, rfl, fun closed => ⟨holds closed, ?_⟩⟩
  rw [isItem, hasSourceTag_head]
  cases item : h.tagName == Tag.listItem with
  | false => rfl
  | true =>
    have filled : (Tag.mapping? Tag.listItem).all (fun m => !m.isVoid) = true := by decide
    rw [← beq_iff_eq.mp item, mapped] at filled
    have void : m.isVoid = true := closed
    simp [void] at filled

theorem leaf_proper {i : Inherited} (named : Marks.Named i.marks) (content source : String) :
    (i.leaf content source).Proper := ⟨⟨content, rfl⟩, ⟨i.marks, rfl, named⟩⟩

theorem converted_head {mode : StyleMode} {head : ElementHead} {void : Bool} {kids : List Node}
    (converted : Converted mode head void) (holds : void = true → kids = []) : head.Proper kids := by
  cases converted with
  | wrapper mapped formats => exact head_proper mode mapped (by decide) holds
  | target mapped plain => exact head_proper mode mapped (target_named mapped) holds

theorem becomes_proper (mode : StyleMode) (a : Ast) (i : Inherited) (named : Marks.Named i.marks) :
    ∀ n ∈ becomes mode i a, Everywhere Node.Proper n :=
  everywhere_becomes Node.lasting_proper mode (fun _ allows => leaf_proper allows)
    (fun _ _ _ allows formats => Table.forall_set allows ⟨mark_named formats, rfl⟩)
    (fun _ _ _ allows => by simpa using allows)
    (fun _ _ _ converted holds => converted_head converted holds) a i named

theorem root_proper (mode : StyleMode) (a : Ast) :
    Everywhere Node.Proper (Node.root.withChildren (becomes mode .nothing a)) := by
  refine everywhere_element.mpr ⟨⟨⟨"root", by decide, rfl⟩, ⟨[], rfl⟩, rfl, fun closed => ?_⟩, ?_⟩
  · cases closed
  · exact becomes_proper mode a .nothing (by simp [Marks.Named, Inherited.nothing])

end Passes

end SemanticMarkup
