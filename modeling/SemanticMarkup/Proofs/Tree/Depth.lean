import Mathlib.Algebra.Order.BigOperators.Group.List
import Mathlib.Algebra.Order.Group.Nat
import SemanticMarkup.Proofs.Tree.Editing

namespace SemanticMarkup.Walk
variable {α : Type} [Branching α]

theorem within_congr {levels : Nat} {a b : α} (same : Branching.children a = Branching.children b)
    (inside : Within levels b) : Within levels a := by
  cases levels with
  | zero =>
    have none : Branching.children b = [] := inside
    exact same.trans none
  | succ levels =>
    intro c member
    rw [same] at member
    exact inside c member

theorem within_of_done [Reshaping α] {edit : α → α} {levels : Nat} {a : α}
    (done : (editWithin edit (levels + 1) a).2 = true) :
    Within levels (editWithin edit (levels + 1) a).1 := by
  induction levels generalizing a with
  | zero =>
    have each := (editWithin_done edit 0 a).mp done
    have none : Branching.children (edit a) = [] := by
      refine List.eq_nil_iff_forall_not_mem.mpr fun c member => ?_
      have unreached := each c member
      simp [editWithin] at unreached
    rw [editWithin_all each, none, List.map_nil, ← none, Branching.same]
    exact none
  | succ levels ih =>
    have each := (editWithin_done edit (levels + 1) a).mp done
    rw [editWithin_all each]
    refine within_withChildren (by simp) fun c member => ?_
    obtain ⟨b, old, rfl⟩ := List.mem_map.mp member
    exact ih (each b old)

theorem within_of_edited {edit : α → α}
    (kept : ∀ a, Branching.children (edit a) = Branching.children a) {levels : Nat} {a : α}
    (done : (editWithin edit (levels + 1) a).2 = true) : Within levels a := by
  induction levels generalizing a with
  | zero =>
    have each := (editWithin_done edit 0 a).mp done
    refine List.eq_nil_iff_forall_not_mem.mpr fun c member => ?_
    rw [← kept] at member
    cases each c member
  | succ levels ih =>
    have each := (editWithin_done edit (levels + 1) a).mp done
    rw [kept] at each
    exact fun c member => ih (each c member)

def Fits (w : α × Nat) : Prop := ∃ levels, w.2 + levels ≤ maxDepth ∧ Within levels w.1

theorem fits_children {a : α} {depth : Nat} (fits : Fits (a, depth)) :
    ∀ w ∈ atDepth (depth + 1) (Branching.children a), Fits w := by
  intro w member
  obtain ⟨c, old, rfl⟩ := List.mem_map.mp member
  obtain ⟨levels, room, inside⟩ := fits
  obtain ⟨fewer, rfl, deep⟩ := inside.child old
  exact ⟨fewer, by simp only at room ⊢; omega, deep⟩

theorem run_fits {waiting : List (α × Nat)} (fits : ∀ w ∈ waiting, Fits w) :
    (run waiting).tooDeep = false := by
  induction waiting using run.induct with
  | case1 => rw [run]
  | case2 a depth waiting deep =>
    obtain ⟨levels, room, _⟩ := fits _ List.mem_cons_self
    simp only at room
    omega
  | case3 a depth waiting fine ih =>
    have all : ∀ w ∈ atDepth (depth + 1) (Branching.children a) ++ waiting, Fits w := by
      intro w member
      rcases List.mem_append.mp member with below | later
      · exact fits_children (fits _ List.mem_cons_self) w below
      · exact fits w (List.mem_cons_of_mem _ later)
    rw [run, if_neg fine]
    exact ih all

theorem tooDeep_of_within {a : α} (inside : Within maxDepth a) : (nodes a).tooDeep = false := by
  refine run_fits fun w member => ?_
  rw [List.mem_singleton] at member
  subst member
  exact ⟨maxDepth, Nat.le_of_eq (Nat.zero_add maxDepth), inside⟩

theorem all_of_within {a : α} (inside : Within maxDepth a) : ∃ things, all a = .ok things :=
  ⟨(nodes a).visited, by simp [all, tooDeep_of_within inside]⟩

theorem size_lt_of_mem {a c : α} (member : c ∈ Branching.children a) :
    Branching.size c < Branching.size a :=
  Nat.lt_of_le_of_lt (List.le_sum_of_mem (List.mem_map_of_mem member)) (Branching.smaller a)

def height (a : α) : Nat :=
  (Branching.children a).attach.foldr (fun c most => max (height c.1 + 1) most) 0
termination_by Branching.size a
decreasing_by exact size_lt_of_mem c.2

theorem height_eq (a : α) :
    height a = (Branching.children a).foldr (fun c most => max (height c + 1) most) 0 := by
  rw [height]
  exact List.foldr_attach (f := fun c most => max (height c + 1) most)

theorem height_le_iff {levels : Nat} {a : α} : height a ≤ levels ↔ Within levels a := by
  have most : ∀ (kids : List α) (bound : Nat),
      kids.foldr (fun c most => max (height c + 1) most) 0 ≤ bound ↔ ∀ c ∈ kids, height c < bound := by
    intro kids bound
    induction kids with
    | nil => simp
    | cons c rest ih =>
      rw [List.foldr_cons, Nat.max_le, ih, List.forall_mem_cons]
      exact Iff.rfl
  induction levels generalizing a with
  | zero =>
    rw [height_eq, most]
    simp [Within, List.eq_nil_iff_forall_not_mem]
  | succ levels ih =>
    rw [height_eq, most]
    refine forall₂_congr fun c _ => ?_
    rw [Nat.lt_succ_iff]
    exact ih

theorem height_lt_of_mem {a c : α} (member : c ∈ Branching.children a) : height c < height a := by
  obtain ⟨fewer, same, inside⟩ := (height_le_iff.mp (Nat.le_refl (height a))).child member
  have low := height_le_iff.mpr inside
  omega

end SemanticMarkup.Walk
