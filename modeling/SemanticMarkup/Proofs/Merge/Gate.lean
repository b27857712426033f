import Mathlib.Data.List.Chain
import SemanticMarkup.Proofs.Merge.Runs

namespace SemanticMarkup.Node
open Walk

-- What is compared before two neighbours become one: the marks of a text, and of nothing else.
def marks? : Node → Option Value
  | .text leaf => some leaf.marks
  | _ => none

def Apart : Option Value → Option Value → Prop
  | some a, some b => Marks.same a b = false
  | _, _ => True

-- No text stands next to one with equal marks.
def Gated (nodes : List Node) : Prop := (nodes.map marks?).IsChain Apart

theorem apart_of_none (a : Option Value) : Apart a none := by
  cases a <;> trivial

theorem marks?_of_other {n : Node} (other : ∀ leaf, n ≠ .text leaf) : n.marks? = none := by
  cases n with
  | text leaf => exact absurd rfl (other leaf)
  | _ => rfl

theorem marks?_withChildren (n : Node) (kids : List Node) : (n.withChildren kids).marks? = n.marks? := by
  cases n <;> rfl

theorem gated_congr {first second : List Node} (same : first.map marks? = second.map marks?) :
    Gated first ↔ Gated second := by
  rw [Gated, Gated, same]

theorem gated_withChildren {n : Node} {kids : List Node}
    (same : kids.map marks? = n.children.map marks?) :
    Gated (n.withChildren kids).children ↔ Gated n.children := by
  have long : kids.length = n.children.length := by simpa using congrArg List.length same
  rw [show (n.withChildren kids).children = kids from Reshaping.children_withChildren n kids long]
  exact gated_congr same

theorem gated_cons {n : Node} {nodes : List Node} :
    Gated (n :: nodes) ↔ (∀ m ∈ (nodes.map marks?).head?, Apart n.marks? m) ∧ Gated nodes :=
  List.isChain_cons

theorem gated_cons_of_other {n : Node} (other : ∀ leaf, n ≠ .text leaf) {nodes : List Node} :
    Gated (n :: nodes) ↔ Gated nodes := by
  rw [gated_cons, marks?_of_other other]
  exact and_iff_right fun _ _ => trivial

theorem gated_mergeFrom (run : Option OpenRun) (nodes : List Node) :
    (∀ r ∈ run, ((mergeFrom run nodes).map marks?).head? = some (some r.leaf.marks)) ∧
      Gated (mergeFrom run nodes) := by
  fun_induction mergeFrom run nodes with
  | case1 => exact ⟨by simp, .nil⟩
  | case2 r => exact ⟨fun _ same => by cases same; rfl, .singleton _⟩
  | case3 leaf rest ih => exact ⟨by simp, ih.2⟩
  | case4 r leaf rest same ih =>
    refine ⟨fun _ one => ?_, ih.2⟩
    cases one
    exact ih.1 (r.join leaf) rfl
  | case5 r leaf rest differ ih =>
    refine ⟨fun _ same => by cases same; rfl, gated_cons.mpr ⟨fun m next => ?_, ih.2⟩⟩
    rw [ih.1 _ rfl] at next
    cases next
    exact (Bool.not_eq_true _).mp differ
  | case6 n rest other ih =>
    exact ⟨by simp, (gated_cons_of_other fun leaf same => other leaf same).mpr ih.2⟩
  | case7 r n rest other ih =>
    have apart : ∀ leaf, n ≠ .text leaf := fun leaf same => other leaf same
    refine ⟨fun _ same => by cases same; rfl, gated_cons.mpr ⟨fun m next => ?_, ?_⟩⟩
    · rw [List.map_cons, marks?_of_other apart] at next
      cases next
      exact apart_of_none _
    · exact (gated_cons_of_other apart).mpr ih.2

theorem gated_merged (nodes : List Node) : Gated (merged nodes) := (gated_mergeFrom none nodes).2

theorem gated_mergeChildren (n : Node) : Gated n.mergeChildren.children := by
  cases n with
  | element head children => exact gated_merged children
  | _ => exact .nil

theorem gated_mergeAll {n : Node} (done : (mergeAll n).2 = true) :
    Everywhere (fun n => Gated n.children) (mergeAll n).1 := by
  have own : ∀ (n : Node) kids, kids.map marks? = n.mergeChildren.children.map marks? →
      (n.mergeChildren.withChildren kids).marks? = n.marks? := fun n kids _ => by
    rw [marks?_withChildren, mergeChildren, marks?_withChildren]
  have anywhere : ∀ n, Everywhere (fun _ : Node => True) n := everywhere_of_all fun _ => trivial
  exact (everywhere_editWithin_iff own
    (fun n kids seen => iff_true_intro ((gated_withChildren seen).mpr (gated_mergeChildren n)))
    (fun n => ⟨fun _ c _ => anywhere c, fun _ c _ => anywhere c⟩) done).mpr (anywhere n)

end SemanticMarkup.Node
