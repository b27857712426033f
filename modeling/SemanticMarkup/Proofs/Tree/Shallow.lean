import SemanticMarkup.Proofs.Tree.Depth

namespace SemanticMarkup

namespace Node

theorem withChildren_withChildren (n : Node) (first second : List Node) :
    (n.withChildren first).withChildren second = n.withChildren second := by
  cases n <;> rfl

theorem refilled_if (n : Node) (kids : List Node) (p : Prop) [Decidable p] :
    ∃ given, (if p then n.withChildren kids else n) = n.withChildren given := by
  split
  · exact ⟨kids, rfl⟩
  · exact ⟨n.children, n.withChildren_children.symm⟩

theorem children_mapHead (f : ElementHead → ElementHead) (n : Node) :
    (n.mapHead f).children = n.children := by
  cases n <;> rfl

end Node

namespace Walk

-- An edit of a node that looks at nothing below it and leaves everything there.
structure Shallow (edit : Node → Node) : Prop where
  children : ∀ n, (edit n).children = n.children
  withChildren : ∀ n kids, edit (n.withChildren kids) = (edit n).withChildren kids

variable {first second edit : Node → Node} {levels depth : Nat} {n : Node}

theorem editWithin_nothing (levels : Nat) (n : Node) : (editWithin id levels n).1 = n := by
  induction levels generalizing n with
  | zero => rfl
  | succ levels ih =>
    have same : (editList (editWithin id levels) n.children).1.map id = n.children.map id :=
      editList_map fun c _ => ih c
    rw [List.map_id, List.map_id] at same
    rw [Walk.editWithin_succ]
    show n.withChildren (editList (editWithin id levels) n.children).1 = n
    rw [same, Node.withChildren_children]

namespace Shallow

theorem nothing : Shallow id := ⟨fun _ => rfl, fun _ _ => rfl⟩

theorem comp (before : Shallow first) (after : Shallow second) : Shallow (second ∘ first) where
  children n := (after.children (first n)).trans (before.children n)
  withChildren n kids := by
    show second (first (n.withChildren kids)) = _
    rw [before.withChildren, after.withChildren]
    rfl

theorem within (shallow : Shallow edit) (depth : Nat) (n : Node) (inside : Within depth n) :
    Within depth (edit n) := within_congr (shallow.children n) inside

theorem foldl {α : Type} {apply : α → Node → Node} {items : List α}
    (each : ∀ a ∈ items, Shallow (apply a)) : Shallow fun n => items.foldl (fun m a => apply a m) n := by
  induction items with
  | nil => exact nothing
  | cons a rest ih =>
    exact (each a List.mem_cons_self).comp (ih fun b member => each b (List.mem_cons_of_mem _ member))

theorem done (shallow : Shallow edit) (inside : Within depth n) (lt : depth < levels) :
    (editWithin edit levels n).2 = true ∧ Within depth (editWithin edit levels n).1 :=
  editWithin_of_within shallow.within inside lt

theorem editWithin_succ (shallow : Shallow edit) (inside : Within depth n) (lt : depth < levels + 1) :
    editWithin edit (levels + 1) n =
      ((edit n).withChildren (n.children.map fun c => (editWithin edit levels c).1), true) := by
  have each : ∀ c ∈ Branching.children (edit n), (editWithin edit levels c).2 = true := by
    intro c member
    obtain ⟨fewer, rfl, deep⟩ := (shallow.within depth n inside).child member
    exact (shallow.done deep (by omega)).1
  rw [editWithin_all each]
  show ((edit n).withChildren ((edit n).children.map _), true) = _
  rw [shallow.children]

theorem editWithin_comp (before : Shallow first) (after : Shallow second) (inside : Within depth n)
    (lt : depth < levels) :
    editWithin second levels (editWithin first levels n).1 = editWithin (second ∘ first) levels n := by
  induction levels generalizing depth n with
  | zero => omega
  | succ levels ih =>
    have edited := (before.done inside lt).2
    have each : ∀ c ∈ n.children,
        (editWithin second levels (editWithin first levels c).1).1 =
          (editWithin (second ∘ first) levels c).1 := by
      intro c member
      obtain ⟨fewer, rfl, deep⟩ := inside.child member
      rw [ih deep (by omega)]
    rw [after.editWithin_succ edited lt, (before.comp after).editWithin_succ inside lt,
      before.editWithin_succ inside lt]
    have kids : ((first n).withChildren
        (n.children.map fun c => (editWithin first levels c).1)).children =
        n.children.map fun c => (editWithin first levels c).1 :=
      Reshaping.children_withChildren (first n) _ (by
        rw [List.length_map]
        exact congrArg List.length (before.children n).symm)
    rw [kids, after.withChildren, Node.withChildren_withChildren, List.map_map]
    exact congrArg (fun kids => ((second (first n)).withChildren kids, true)) (List.map_congr_left each)

theorem editWithin_congr {P : Node → Prop} (shallow : Shallow first)
    (same : ∀ n, P n → first n = second n) (all : Everywhere P n) :
    editWithin first levels n = editWithin second levels n := by
  induction levels generalizing n with
  | zero => rfl
  | succ levels ih =>
    rw [Walk.editWithin_succ, Walk.editWithin_succ, ← same n all.here]
    have each : ∀ c ∈ Branching.children (first n),
        editWithin first levels c = editWithin second levels c := by
      intro c member
      rw [show Branching.children (first n) = n.children from shallow.children n] at member
      exact ih (all.inside c member)
    rw [editList_congr each]

end Shallow

theorem editWithin_still (still : Everywhere (fun m => edit m = m) n) :
    (editWithin edit levels n).1 = n := by
  have same : editWithin id levels n = editWithin edit levels n :=
    Shallow.nothing.editWithin_congr (fun m here => here.symm) still
  rw [← same, editWithin_nothing]

end Walk
end SemanticMarkup
