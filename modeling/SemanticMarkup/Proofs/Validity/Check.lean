import SemanticMarkup.Proofs.Results
import SemanticMarkup.Proofs.Tree.Depth
import SemanticMarkup.Proofs.Validity.Exactness
import SemanticMarkup.Transform

namespace SemanticMarkup
open Walk Passes Validate

def Marks.Named (t : Table Value) : Prop :=
  ∀ entry ∈ t, entry.1 ∈ markNames ∧ entry.2 = .flag true

structure TextLeaf.Proper (leaf : TextLeaf) : Prop where
  content : ∃ s, leaf.content = .text s
  marks : ∃ t, leaf.marks = Inherited.unlessEmpty t ∧ Marks.Named t

-- An element that no check objects to, with these children. A void one is no list item, so it
-- gets no marker later on.
structure ElementHead.Proper (head : ElementHead) (children : List Node) : Prop where
  tag : ∃ name, name ≠ "" ∧ head.tag = .text name
  props : ∃ table, head.props = .record table
  known : head.capabilities.foreign? = none
  void : head.capabilities.saysVoid = true →
    children = [] ∧ isItem (.element head []) = false

def Node.Proper : Node → Prop
  | .element head children => head.Proper children
  | .text leaf => leaf.Proper
  | _ => False

theorem wellFormed_of_proper {n : Node} (proper : n.Proper) : n.WellFormed := by
  cases n with
  | element head children =>
    exact ⟨proper.tag, proper.props, fun closed => congrArg Node.specimens (proper.void closed).1⟩
  | text leaf =>
    obtain ⟨content, ⟨t, marks, named⟩⟩ := proper
    refine ⟨content, ?_⟩
    cases t with
    | nil => exact .inl marks
    | cons => exact .inr ⟨_, marks, fun entry inside => ⟨(named entry inside).1, true, (named entry inside).2⟩⟩
  | _ => exact proper.elim

theorem foreign_of_proper {n : Node} (proper : n.Proper) : n.specimen.foreign? = none := by
  cases n with
  | element head children => exact proper.known
  | text leaf => rfl
  | _ => exact proper.elim

namespace Validate

def Fine (p : Place) : Prop :=
  ∃ n : Node, p.node = n.specimen ∧ Everywhere Node.Proper n ∧
    ∃ levels, p.path.length + levels ≤ maxDepth ∧ Within levels n

theorem fault_of_fine {p : Place} (fine : Fine p) : fault? p = none := by
  obtain ⟨n, same, proper, levels, room, _⟩ := fine
  refine (fault_eq_none_iff p).mpr ⟨by omega, ?_, ?_⟩
  · rw [same]
    exact wellFormed_of_proper proper.here
  · rw [same]
    exact foreign_of_proper proper.here

theorem fine_children {p : Place} (fine : Fine p) : ∀ c ∈ p.children, Fine c := by
  obtain ⟨n, same, proper, levels, room, inside⟩ := fine
  intro c member
  obtain ⟨⟨child, i⟩, among, rfl⟩ := List.mem_map.mp member
  have old : child ∈ n.children.map Node.specimen := by
    rw [← Node.children_specimen, ← same]
    exact List.fst_mem_of_mem_zipIdx among
  obtain ⟨b, below, rfl⟩ := List.mem_map.mp old
  obtain ⟨fewer, rfl, deep⟩ := inside.child below
  exact ⟨b, rfl, proper.inside b below, fewer, by simp; omega, deep⟩

theorem run_of_fine {waiting : List Place} (fine : ∀ p ∈ waiting, Fine p) : run waiting = none := by
  induction waiting using run.induct with
  | case1 => rw [run]
  | case2 p waiting fault wrong =>
    rw [fault_of_fine (fine p List.mem_cons_self)] at wrong
    cases wrong
  | case3 p waiting right ih =>
    rw [run, right]
    refine ih fun c member => ?_
    rcases List.mem_append.mp member with below | later
    · exact fine_children (fine p List.mem_cons_self) c below
    · exact fine c (List.mem_cons_of_mem _ later)

theorem specimen_of_fine {path : List String} {s : Specimen} (fine : Fine ⟨path, s⟩) :
    specimen path s = .ok () := by
  have waiting : ∀ p ∈ [(⟨path, s⟩ : Place)], Fine p := by simpa using fine
  rw [specimen, run_of_fine waiting]

theorem nodes_of_fine {list : List Node} (fine : ∀ n ∈ list, ∀ name, Fine ⟨[name], n.specimen⟩) :
    nodes list = .ok () := by
  refine forM_ok fun (s, _) member => specimen_of_fine ?_
  obtain ⟨n, old, rfl⟩ := List.mem_map.mp (List.fst_mem_of_mem_zipIdx member)
  exact fine n old _

end Validate

theorem Transformer.check_ok {root : Node} (proper : Everywhere Node.Proper root)
    (inside : Within maxDepth root) : check root = .ok () := by
  cases root with
  | element head children =>
    refine nodes_of_fine fun n member name => ?_
    obtain ⟨levels, same, deep⟩ := inside.child member
    exact ⟨n, rfl, proper.inside n member, levels, by simp; omega, deep⟩
  | text leaf =>
    refine nodes_of_fine fun n member name => ?_
    rw [show n = .text leaf from List.mem_singleton.mp member]
    have room : 1 ≤ maxDepth := by decide
    exact ⟨_, rfl, proper, 0, room, rfl⟩
  | _ => exact proper.here.elim

end SemanticMarkup
