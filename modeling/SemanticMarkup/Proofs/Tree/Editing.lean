import SemanticMarkup.Proofs.Tree.Shape
import SemanticMarkup.Walk.Find

namespace SemanticMarkup.Walk
variable {α β : Type}

theorem editList_length (edit : α → α × Bool) (things : List α) :
    (editList edit things).1.length = things.length := by
  induction things with
  | nil => rfl
  | cons a rest ih =>
    unfold editList
    split
    · simp [ih]
    · simp

theorem editList_done (edit : α → α × Bool) (things : List α) :
    (editList edit things).2 = true ↔ ∀ a ∈ things, (edit a).2 = true := by
  induction things with
  | nil => simp [editList]
  | cons a rest ih =>
    unfold editList
    split
    · rename_i edited done
      simp [ih, done]
    · rename_i edited failed
      simp [failed]

theorem editList_eq_map {edit : α → α × Bool} {things : List α}
    (done : ∀ a ∈ things, (edit a).2 = true) :
    editList edit things = (things.map fun a => (edit a).1, true) := by
  induction things with
  | nil => rfl
  | cons a rest ih =>
    have first := done a (by simp)
    have others := ih fun b member => done b (by simp [member])
    unfold editList
    split
    · rename_i edited one
      simp [others, one]
    · rename_i edited failed
      simp [failed] at first

theorem editList_congr {first second : α → α × Bool} {things : List α}
    (same : ∀ a ∈ things, first a = second a) : editList first things = editList second things := by
  induction things with
  | nil => rfl
  | cons a rest ih =>
    rw [editList, editList, same a (by simp), ih fun b member => same b (by simp [member])]

theorem editList_again {edit : α → α × Bool} {things : List α}
    (again : ∀ a ∈ things, edit (edit a).1 = edit a) :
    editList edit (editList edit things).1 = editList edit things := by
  induction things with
  | nil => rfl
  | cons a rest ih =>
    have first := again a List.mem_cons_self
    have others := ih fun b member => again b (List.mem_cons_of_mem _ member)
    match here : edit a with
    | (b, true) =>
      have same : edit b = (b, true) := by rwa [here] at first
      simp only [editList, here, same, others]
    | (b, false) =>
      have same : edit b = (b, false) := by rwa [here] at first
      simp only [editList, here, same]

theorem editList_map {edit : α → α × Bool} {things : List α} {f : α → β}
    (same : ∀ a ∈ things, f (edit a).1 = f a) :
    (editList edit things).1.map f = things.map f := by
  induction things with
  | nil => rfl
  | cons a rest ih =>
    have first := same a (by simp)
    have others := ih fun b member => same b (by simp [member])
    unfold editList
    split
    · rename_i edited done
      rw [done] at first
      simp only [List.map_cons, others]
      rw [show f edited = f a from first]
    · rename_i edited failed
      rw [failed] at first
      simp only [List.map_cons]
      rw [show f edited = f a from first]

theorem editList_forall {edit : α → α × Bool} {things : List α} {P : α → Prop}
    (before : ∀ a ∈ things, P a) (after : ∀ a ∈ things, P (edit a).1) :
    ∀ b ∈ (editList edit things).1, P b := by
  induction things with
  | nil => simp [editList]
  | cons a rest ih =>
    have first := after a (by simp)
    have others := ih (fun b member => before b (by simp [member]))
      (fun b member => after b (by simp [member]))
    unfold editList
    split
    · rename_i edited done
      rw [done] at first
      intro b member
      rcases List.mem_cons.mp member with rfl | later
      · exact first
      · exact others b later
    · rename_i edited failed
      rw [failed] at first
      intro b member
      rcases List.mem_cons.mp member with rfl | later
      · exact first
      · exact before b (by simp [later])

theorem exists_editList {edit : α → α × Bool} {things : List α} {P : α → Prop}
    (same : ∀ a ∈ things, P (edit a).1 ↔ P a) :
    (∃ b ∈ (editList edit things).1, P b) ↔ ∃ a ∈ things, P a := by
  have told : (editList edit things).1.map P = things.map P :=
    editList_map fun a member => propext (same a member)
  have found : ∀ list : List α, (∃ a ∈ list, P a) ↔ True ∈ list.map P := by
    simp [List.mem_map]
  rw [found, told, ← found]

variable [Branching α]

theorem editWithin_succ (edit : α → α) (levels : Nat) (a : α) :
    editWithin edit (levels + 1) a =
      (Branching.withChildren (edit a)
        (editList (editWithin edit levels) (Branching.children (edit a))).1,
       (editList (editWithin edit levels) (Branching.children (edit a))).2) := rfl

theorem editWithin_done (edit : α → α) (levels : Nat) (a : α) :
    (editWithin edit (levels + 1) a).2 = true ↔
      ∀ c ∈ Branching.children (edit a), (editWithin edit levels c).2 = true := by
  rw [editWithin_succ]
  exact editList_done _ _

theorem editWithin_all {edit : α → α} {levels : Nat} {a : α}
    (done : ∀ c ∈ Branching.children (edit a), (editWithin edit levels c).2 = true) :
    editWithin edit (levels + 1) a =
      (Branching.withChildren (edit a)
        ((Branching.children (edit a)).map fun c => (editWithin edit levels c).1), true) := by
  rw [editWithin_succ, editList_eq_map done]

theorem edited_fst (edit : α → α) (a : α) : (edited edit a).1 = (editAll edit a).1 := by
  unfold edited
  split <;> rename_i same <;> rw [same]

theorem edited_snd (edit : α → α) (a : α) :
    (edited edit a).2 = if (editAll edit a).2 then .ok () else .error depthFault := by
  unfold edited
  split <;> rename_i same <;> rw [same] <;> rfl

theorem editWithin_view {edit : α → α} {f : α → β}
    (own : ∀ a kids, kids.map f = (Branching.children (edit a)).map f →
      f (Branching.withChildren (edit a) kids) = f a) (levels : Nat) (a : α) :
    f (editWithin edit levels a).1 = f a := by
  induction levels generalizing a with
  | zero => rfl
  | succ levels ih =>
    rw [editWithin_succ]
    exact own a _ (editList_map fun c _ => ih c)

variable [Reshaping α]

theorem editWithin_of_within {edit : α → α}
    (keeps : ∀ depth a, Within depth a → Within depth (edit a)) {levels depth : Nat} {a : α}
    (inside : Within depth a) (lt : depth < levels) :
    (editWithin edit levels a).2 = true ∧ Within depth (editWithin edit levels a).1 := by
  induction levels generalizing depth a with
  | zero => omega
  | succ levels ih =>
    have edited := keeps depth a inside
    have child : ∀ c ∈ Branching.children (edit a), ∃ fewer, depth = fewer + 1 ∧
        (editWithin edit levels c).2 = true ∧ Within fewer (editWithin edit levels c).1 := by
      intro c member
      obtain ⟨fewer, rfl, deep⟩ := edited.child member
      exact ⟨fewer, rfl, ih deep (by omega)⟩
    have done : ∀ c ∈ Branching.children (edit a), (editWithin edit levels c).2 = true := by
      intro c member
      obtain ⟨_, _, done, _⟩ := child c member
      exact done
    rw [editWithin_all done]
    refine ⟨rfl, ?_⟩
    cases depth with
    | zero =>
      have none : Branching.children (edit a) = [] := edited
      simp only [none, List.map_nil]
      rw [← none, Branching.same]
      exact edited
    | succ depth =>
      refine within_withChildren (by simp) ?_
      intro c member
      obtain ⟨b, old, rfl⟩ := List.mem_map.mp member
      obtain ⟨fewer, equal, _, deep⟩ := child b old
      cases equal
      exact deep

theorem editWithin_everywhere {edit : α → α} {P : α → Prop}
    (keeps : ∀ a, Everywhere P a → Everywhere P (edit a))
    (reshaped : ∀ a kids, P a → kids.length = (Branching.children a).length →
      P (Branching.withChildren a kids)) (levels : Nat) {a : α} (all : Everywhere P a) :
    Everywhere P (editWithin edit levels a).1 := by
  induction levels generalizing a with
  | zero => exact all
  | succ levels ih =>
    have edited := keeps a all
    have long := editList_length (editWithin edit levels) (Branching.children (edit a))
    rw [editWithin_succ]
    refine .intro (reshaped _ _ edited.here long) ?_
    rw [Reshaping.children_withChildren _ _ long]
    exact editList_forall edited.inside fun c member => ih (edited.inside c member)

theorem everywhere_editWithin_iff {edit : α → α} {f : α → β} {P Q : α → Prop}
    (own : ∀ a kids, kids.map f = (Branching.children (edit a)).map f →
      f (Branching.withChildren (edit a) kids) = f a)
    (here : ∀ a kids, kids.map f = (Branching.children (edit a)).map f →
      (P (Branching.withChildren (edit a) kids) ↔ Q a))
    (inside : ∀ a, (∀ c ∈ Branching.children (edit a), Everywhere Q c) ↔
      ∀ c ∈ Branching.children a, Everywhere Q c)
    {levels : Nat} {a : α} (done : (editWithin edit levels a).2 = true) :
    Everywhere P (editWithin edit levels a).1 ↔ Everywhere Q a := by
  induction levels generalizing a with
  | zero => cases done
  | succ levels ih =>
    have each := (editWithin_done edit levels a).mp done
    have long : ((Branching.children (edit a)).map fun c => (editWithin edit levels c).1).length =
        (Branching.children (edit a)).length := List.length_map _
    have seen : ((Branching.children (edit a)).map fun c => (editWithin edit levels c).1).map f =
        (Branching.children (edit a)).map f := by
      rw [List.map_map]
      exact List.map_congr_left fun c _ => editWithin_view own levels c
    rw [editWithin_all each, Everywhere.iff_inside, Reshaping.children_withChildren _ _ long,
      here a _ seen, List.forall_mem_map, Everywhere.iff_inside (a := a), ← inside a]
    exact and_congr_right fun _ => forall₂_congr fun c member => ih (each c member)

end SemanticMarkup.Walk
