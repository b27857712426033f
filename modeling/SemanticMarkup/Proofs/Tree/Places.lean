import SemanticMarkup.Node.Replace
import SemanticMarkup.Proofs.Tree.Depth
import SemanticMarkup.Proofs.Tree.Visits

namespace SemanticMarkup.Walk
variable {α : Type} [Branching α]

@[elab_as_elim]
theorem induct {motive : α → Prop}
    (node : ∀ a, (∀ c ∈ Branching.children a, motive c) → motive a) (a : α) : motive a :=
  node a fun c _ => induct node c
termination_by Branching.size a
decreasing_by exact size_lt_of_mem ‹_›

-- What stands at a place, the indices leading to it from the top.
def at? (a : α) : Path → Option α
  | [] => some a
  | i :: path => (Branching.children a)[i]?.bind fun c => at? c path

def putAt (b : α) : Path → α → α
  | [], _ => b
  | i :: path, a => Branching.withChildren a ((Branching.children a).modify i (putAt b path))

-- Everything in a tree with its depth, a thing before its children and those in their order. The
-- depth of the top is given.
def withDepths (depth : Nat) (a : α) : List (α × Nat) :=
  (a, depth) :: (Branching.children a).attach.flatMap fun c => withDepths (depth + 1) c.1
termination_by Branching.size a
decreasing_by exact size_lt_of_mem c.2

theorem withDepths_eq (depth : Nat) (a : α) :
    withDepths depth a = (a, depth) :: (Branching.children a).flatMap (withDepths (depth + 1)) := by
  have kids := List.flatMap_map Subtype.val (withDepths (depth + 1)) (l := (Branching.children a).attach)
  rw [List.attach_map_subtype_val] at kids
  rw [withDepths, kids]

theorem at?_append (a : α) (path rest : Path) :
    at? a (path ++ rest) = (at? a path).bind fun b => at? b rest := by
  induction path generalizing a with
  | nil => rfl
  | cons i path ih =>
    rw [List.cons_append, at?, at?, Option.bind_assoc]
    exact congrArg _ (funext fun c => ih c)

theorem at?_cons_eq_some_iff {a b : α} {i : Nat} {path : Path} :
    at? a (i :: path) = some b ↔ ∃ c, (Branching.children a)[i]? = some c ∧ at? c path = some b := by
  rw [at?, Option.bind_eq_some_iff]

theorem at?_concat {a b : α} {path : Path} (stands : at? a path = some b) (i : Nat) :
    at? a (path ++ [i]) = (Branching.children b)[i]? := by
  rw [at?_append, stands, Option.bind_some, at?]
  cases (Branching.children b)[i]? <;> rfl

theorem length_le_of_at? {levels : Nat} {a b : α} {path : Path} (inside : Within levels a)
    (stands : at? a path = some b) : path.length ≤ levels := by
  induction path generalizing a levels with
  | nil => exact Nat.zero_le _
  | cons i path ih =>
    obtain ⟨c, child, below⟩ := at?_cons_eq_some_iff.mp stands
    obtain ⟨fewer, rfl, deep⟩ := inside.child (List.mem_of_getElem? child)
    exact Nat.succ_le_succ (ih deep below)

theorem not_prefix_of_lt {parent earlier : Path} {i : Nat} (less : earlier < parent) :
    ¬ parent ++ [i] <+: earlier := by
  rintro ⟨rest, rfl⟩
  induction parent with
  | nil => cases less
  | cons j parent ih =>
    rw [List.cons_append, List.cons_append, List.cons_lt_cons_iff] at less
    rcases less with before | ⟨_, further⟩
    · exact Nat.lt_irrefl j before
    · exact ih further

theorem not_prefix_parent {parent : Path} {i : Nat} : ¬ parent ++ [i] <+: parent := by
  intro further
  have long := further.length_le
  rw [List.length_append, List.length_singleton] at long
  omega

-- All that is not below a place lies in reach of a walk.
def NearBeside (a : α) (path : Path) : Prop :=
  ∀ place c, ¬ path <+: place → at? a place = some c → place.length ≤ maxDepth

theorem nearBeside_of_within {a : α} (inside : Within maxDepth a)
    (path : Path) : NearBeside a path :=
  fun _ _ _ stands => length_le_of_at? inside stands

theorem putAt_append {a b c : α} {path : Path} (rest : Path) (stands : at? a path = some c) :
    putAt b (path ++ rest) a = putAt (putAt b rest c) path a := by
  induction path generalizing a with
  | nil =>
    cases stands
    rfl
  | cons i path ih =>
    obtain ⟨d, child, below⟩ := at?_cons_eq_some_iff.mp stands
    rw [List.cons_append, putAt, putAt]
    congr 1
    refine List.ext_getElem? fun j => ?_
    rw [List.getElem?_modify, List.getElem?_modify]
    by_cases here : i = j
    · subst here
      simp [child, ih below]
    · simp [here]

section Putting
variable [Reshaping α]

theorem children_putAt_cons (a b : α) (i : Nat) (path : Path) :
    Branching.children (putAt b (i :: path) a) = (Branching.children a).modify i (putAt b path) :=
  Reshaping.children_withChildren _ _ (List.length_modify _ _ _)

theorem at?_putAt_append {a b c : α} {path : Path} (stands : at? a path = some c) (rest : Path) :
    at? (putAt b path a) (path ++ rest) = at? b rest := by
  induction path generalizing a with
  | nil => rfl
  | cons i path ih =>
    obtain ⟨d, child, below⟩ := at?_cons_eq_some_iff.mp stands
    rw [List.cons_append, at?, children_putAt_cons, List.getElem?_modify, child]
    simp only [if_true, Option.map_eq_map, Option.map_some, Option.bind_some]
    exact ih below

theorem view_putAt {β : Type} {f : α → β}
    (own : ∀ a kids, kids.length = (Branching.children a).length →
      f (Branching.withChildren a kids) = f a)
    (a b : α) {path place : Path} (beside : ¬ path <+: place) :
    (at? (putAt b path a) place).map f = (at? a place).map f := by
  induction path generalizing a place with
  | nil => exact absurd List.nil_prefix beside
  | cons i path ih =>
    cases place with
    | nil => exact congrArg some (own a _ (List.length_modify _ _ _))
    | cons j place =>
      rw [at?, at?, children_putAt_cons, List.getElem?_modify]
      cases child : (Branching.children a)[j]? with
      | none => rfl
      | some d =>
        by_cases here : i = j
        · subst here
          simp only [if_true, Option.map_eq_map, Option.map_some, Option.bind_some]
          exact ih d fun further => beside (List.cons_prefix_cons.mpr ⟨rfl, further⟩)
        · simp [here]

theorem putAt_putAt {a b c : α} {path : Path}
    (again : ∀ (a : α) (first second : List α), first.length = (Branching.children a).length →
      Branching.withChildren (Branching.withChildren a first) second =
        Branching.withChildren a second)
    (stands : at? a path = some c) : putAt c path (putAt b path a) = a := by
  induction path generalizing a with
  | nil => exact (Option.some.inj stands).symm
  | cons i path ih =>
    obtain ⟨d, child, below⟩ := at?_cons_eq_some_iff.mp stands
    have kids : ((Branching.children a).modify i (putAt b path)).modify i (putAt c path) =
        Branching.children a := by
      refine List.ext_getElem? fun j => ?_
      rw [List.getElem?_modify, List.getElem?_modify]
      by_cases here : i = j
      · subst here
        simp [child, ih below]
      · simp [here]
    calc putAt c (i :: path) (putAt b (i :: path) a)
        = Branching.withChildren (putAt b (i :: path) a)
            ((Branching.children (putAt b (i :: path) a)).modify i (putAt c path)) := rfl
      _ = Branching.withChildren (putAt b (i :: path) a) (Branching.children a) := by
          rw [children_putAt_cons, kids]
      _ = Branching.withChildren a (Branching.children a) := again a _ _ (List.length_modify _ _ _)
      _ = a := Branching.same a

end Putting

theorem at?_of_mem_withDepths {a b : α} {depth deep : Nat} (member : (b, deep) ∈ withDepths depth a) :
    ∃ path, at? a path = some b ∧ deep = depth + path.length := by
  induction depth, a using withDepths.induct with
  | case1 depth a ih =>
    rw [withDepths_eq] at member
    rcases List.mem_cons.mp member with same | below
    · cases same
      exact ⟨[], rfl, rfl⟩
    · obtain ⟨c, child, inside⟩ := List.mem_flatMap.mp below
      obtain ⟨path, stands, rfl⟩ := ih ⟨c, child⟩ inside
      obtain ⟨i, given⟩ := List.getElem?_of_mem child
      refine ⟨i :: path, at?_cons_eq_some_iff.mpr ⟨c, given, stands⟩, ?_⟩
      rw [List.length_cons]
      omega

theorem withDepths_split {a b : α} {path : Path} (depth : Nat) (stands : at? a path = some b) :
    ∃ before after, withDepths depth a = before ++ (b, depth + path.length) :: after ∧
      ∀ w ∈ before, ∃ earlier, earlier < path ∧ at? a earlier = some w.1 ∧
        w.2 = depth + earlier.length := by
  induction path generalizing a depth with
  | nil =>
    cases stands
    exact ⟨[], _, withDepths_eq depth _, nofun⟩
  | cons i path ih =>
    obtain ⟨c, child, below⟩ := at?_cons_eq_some_iff.mp stands
    obtain ⟨before, after, split, earlier⟩ := ih (depth + 1) below
    obtain ⟨short, here⟩ := List.getElem?_eq_some_iff.mp child
    have kids : Branching.children a =
        (Branching.children a).take i ++ c :: (Branching.children a).drop (i + 1) := by
      rw [← here, ← List.drop_eq_getElem_cons short, List.take_append_drop]
    refine ⟨(a, depth) :: (((Branching.children a).take i).flatMap (withDepths (depth + 1)) ++ before),
      after ++ ((Branching.children a).drop (i + 1)).flatMap (withDepths (depth + 1)), ?_, ?_⟩
    · have below := congrArg (List.flatMap (withDepths (depth + 1))) kids
      rw [List.flatMap_append, List.flatMap_cons, split,
        show depth + 1 + path.length = depth + (path.length + 1) by omega] at below
      rw [withDepths_eq, below, List.length_cons]
      simp only [List.append_assoc, List.cons_append]
    · intro w member
      rcases List.mem_cons.mp member with rfl | later
      · exact ⟨[], List.nil_lt_cons i path, rfl, rfl⟩
      rcases List.mem_append.mp later with beside | inside
      · obtain ⟨d, among, told⟩ := List.mem_flatMap.mp beside
        obtain ⟨j, small, same⟩ := List.getElem_of_mem among
        rw [List.length_take] at small
        obtain ⟨rest, stands, deep⟩ := at?_of_mem_withDepths told
        have given : (Branching.children a)[j]? = some d := by
          rw [← same, List.getElem_take]
          exact List.getElem?_eq_getElem _
        refine ⟨j :: rest, List.Lex.rel (by omega), at?_cons_eq_some_iff.mpr ⟨d, given, stands⟩, ?_⟩
        rw [deep, List.length_cons]
        omega
      · obtain ⟨rest, less, stands, deep⟩ := earlier w inside
        refine ⟨i :: rest, List.Lex.cons less, at?_cons_eq_some_iff.mpr ⟨c, child, stands⟩, ?_⟩
        rw [deep, List.length_cons]
        omega

def reachable (w : α × Nat) : Bool := decide (w.2 ≤ maxDepth)

theorem run_withDepths (waiting : List (α × Nat)) :
    run waiting =
      ⟨((waiting.flatMap fun w => withDepths w.2 w.1).takeWhile reachable).map Prod.fst,
        !(waiting.flatMap fun w => withDepths w.2 w.1).all reachable⟩ := by
  induction waiting using run.induct with
  | case1 =>
    rw [run]
    rfl
  | case2 a depth waiting deep =>
    have far : reachable (a, depth) = false := by simpa [reachable] using deep
    rw [run, if_pos deep, List.flatMap_cons, withDepths_eq]
    simp [far]
  | case3 a depth waiting fine ih =>
    have near : reachable (a, depth) = true := by simpa [reachable] using fine
    have below : ((atDepth (depth + 1) (Branching.children a) ++ waiting).flatMap fun w =>
        withDepths w.2 w.1) =
        (Branching.children a).flatMap (withDepths (depth + 1)) ++ waiting.flatMap fun w => withDepths w.2 w.1 := by
      rw [List.flatMap_append, atDepth, List.flatMap_map]
    rw [below] at ih
    rw [run, if_neg fine, ih, List.flatMap_cons, withDepths_eq]
    simp [near]

theorem nodes_withDepths (a : α) :
    nodes a = ⟨((withDepths 0 a).takeWhile reachable).map Prod.fst, !(withDepths 0 a).all reachable⟩ := by
  rw [nodes, run_withDepths]
  simp

variable {a b : α} {p : α → Bool}

theorem search_found {path : Path} (stands : at? a path = some b) (holds : p b = true)
    (near : path.length ≤ maxDepth)
    (first : ∀ earlier c, earlier < path → at? a earlier = some c →
      p c = false ∧ earlier.length ≤ maxDepth) : search p a = .found b := by
  obtain ⟨before, after, split, earlier⟩ := withDepths_split 0 stands
  have shallow : ∀ w ∈ before, reachable w = true := by
    intro w member
    obtain ⟨place, less, here, deep⟩ := earlier w member
    have := (first place w.1 less here).2
    simp only [reachable, decide_eq_true_eq]
    omega
  have visited : ((withDepths 0 a).takeWhile reachable).map Prod.fst =
      before.map Prod.fst ++ b :: (after.takeWhile reachable).map Prod.fst := by
    rw [split, List.takeWhile_append_of_pos shallow, List.takeWhile_cons_of_pos (by simpa [reachable])]
    simp
  have passed : (before.map Prod.fst).find? p = none := by
    rw [List.find?_eq_none]
    intro c member
    obtain ⟨w, old, rfl⟩ := List.mem_map.mp member
    obtain ⟨place, less, here, _⟩ := earlier w old
    simp [(first place w.1 less here).1]
  rw [search_nodes, nodes_withDepths, visited, List.find?_append, passed, List.find?_cons_of_pos holds]
  rfl

theorem search_absent (inside : Within maxDepth a)
    (none : ∀ path c, at? a path = some c → p c = false) : search p a = .absent := by
  have shallow : (withDepths 0 a).all reachable = true := by
    rw [List.all_eq_true]
    intro w member
    obtain ⟨path, stands, deep⟩ := at?_of_mem_withDepths member
    have := length_le_of_at? inside stands
    simp only [reachable, decide_eq_true_eq]
    omega
  have missing : (((withDepths 0 a).takeWhile reachable).map Prod.fst).find? p = Option.none := by
    rw [List.find?_eq_none]
    intro c member
    obtain ⟨w, told, rfl⟩ := List.mem_map.mp member
    obtain ⟨path, stands, _⟩ := at?_of_mem_withDepths ((List.takeWhile_sublist _).subset told)
    simp [none path w.1 stands]
  rw [search_nodes, nodes_withDepths, missing, shallow]
  rfl

end SemanticMarkup.Walk
