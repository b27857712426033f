import SemanticMarkup.Proofs.Pipeline.Gate
import SemanticMarkup.Proofs.Structure.Numbering

namespace SemanticMarkup
open Walk

namespace Passes
variable {κ σ : Type} {most : Nat}

-- How many table sections stand one inside the other, each of them alone in the one before, down
-- to one that has another number of children than one.
def stack : Node → Nat
  | .element head [only] =>
    if isTableSection (.element head [only]) then stack only + 1 else 0
  | _ => 0

def Flat (n : Node) : Prop :=
  n.hasSourceTag Tag.table = true → ∀ c ∈ n.children, isTableSection c = true → c.children.length ≠ 1

def Stacks (most : Nat) (n : Node) : Prop :=
  n.hasSourceTag Tag.table = true → ∀ c ∈ n.children, stack c ≤ most

instance (most : Nat) (n : Node) : Decidable (Stacks most n) :=
  inferInstanceAs (Decidable (_ → ∀ c ∈ n.children, stack c ≤ most))

theorem stack_of_other {n : Node} (other : isTableSection n = false) : stack n = 0 := by
  fun_cases stack n with
  | case1 head only inner => rw [inner] at other; cases other
  | case2 => rfl
  | case3 => rfl

theorem stack_of_table {n : Node} (table : n.hasSourceTag Tag.table = true) : stack n = 0 := by
  refine stack_of_other (Bool.eq_false_iff.mpr fun inner => ?_)
  rw [not_table_of_section inner] at table
  cases table

theorem stack_eq_zero_iff (n : Node) :
    stack n = 0 ↔ (isTableSection n = true → n.children.length ≠ 1) := by
  fun_cases stack n with
  | case1 head only inner => simp [inner, Node.children]
  | case2 head only other => simp [other]
  | case3 n shape =>
    refine iff_of_true rfl fun _ one => ?_
    cases n with
    | element head children =>
      obtain ⟨only, rfl⟩ := List.length_eq_one_iff.mp one
      exact shape head only rfl
    | _ => cases one

theorem flat_iff (n : Node) : Flat n ↔ Stacks 0 n := by
  refine imp_congr_right fun _ => forall₂_congr fun c _ => ?_
  rw [Nat.le_zero, stack_eq_zero_iff]

theorem stack_withChildren {n : Node} {kids : List Node} (same : kids.map stack = n.children.map stack) :
    stack (n.withChildren kids) = stack n := by
  cases n with
  | element head children =>
    match kids, children, same with
    | [only], [other], same =>
      have alike : stack only = stack other := (List.cons.inj same).1
      show stack (.element head [only]) = stack (.element head [other])
      rw [stack, stack, alike]
      rfl
    | [], [], _ => rfl
    | _ :: _ :: _, _ :: _ :: _, _ => rfl
    | [_], _ :: _ :: _, same => cases (List.cons.inj same).2
    | _ :: _ :: _, [_], same => cases (List.cons.inj same).2
  | _ => rfl

theorem stack_unwrapped (n : Node) : stack (unwrapped n) = stack n - 1 := by
  unfold unwrapped
  split
  · rename_i inner
    split
    · rename_i only one
      cases n with
      | element head children =>
        cases one
        rw [stack, if_pos inner, Nat.add_sub_cancel]
      | _ => cases one
    · rename_i several
      have none : stack n = 0 := by
        refine (stack_eq_zero_iff n).mpr fun _ one => ?_
        obtain ⟨only, alone⟩ := List.length_eq_one_iff.mp one
        exact several only alone
      rw [none]
  · rename_i other
    rw [stack_of_other (by simpa using other)]

theorem stack_le {depth : Nat} {n : Node} (inside : Within depth n) : stack n ≤ depth := by
  induction depth generalizing n with
  | zero =>
    have none : n.children = [] := inside
    rw [(stack_eq_zero_iff n).mpr fun _ => by simp [none]]
  | succ depth ih =>
    fun_cases stack n with
    | case1 head only inner => exact Nat.succ_le_succ (ih (inside only List.mem_cons_self))
    | case2 => exact Nat.zero_le _
    | case3 => exact Nat.zero_le _

theorem stacks_of_other {n : Node} (other : n.hasSourceTag Tag.table = false) : Stacks most n := by
  intro table
  rw [other] at table
  cases table

theorem stack_flattenIn {n : Node} {kids : List Node}
    (same : kids.map stack = (flattenIn n).children.map stack) :
    stack ((flattenIn n).withChildren kids) = stack n := by
  rw [stack_withChildren same]
  cases table : n.hasSourceTag Tag.table with
  | false => rw [flattenIn_of_other table]
  | true => rw [stack_of_table table, stack_of_table ((hasSourceTag_flattenIn n _).trans table)]

theorem stacks_flattenIn {n : Node} {kids : List Node}
    (same : kids.map stack = (flattenIn n).children.map stack) :
    Stacks most ((flattenIn n).withChildren kids) ↔ Stacks (most + 1) n := by
  have tag := (Node.hasSourceTag_withChildren (flattenIn n) kids Tag.table).trans (hasSourceTag_flattenIn n _)
  have long : kids.length = (flattenIn n).children.length := by simpa using congrArg List.length same
  have kept : ((flattenIn n).withChildren kids).children = kids :=
    Reshaping.children_withChildren _ _ long
  rw [Stacks, tag, kept, Stacks]
  refine imp_congr_right fun table => ?_
  rw [children_flattenIn table] at same
  have read : ∀ list : List Node, (∀ c ∈ list, stack c ≤ most) ↔ ∀ size ∈ list.map stack, size ≤ most := by
    simp
  rw [read, same, ← read]
  simp only [List.forall_mem_map, stack_unwrapped, Nat.sub_le_iff_le_add]

theorem stacks_flattened {n : Node} (done : (editAll flattenIn n).2 = true) :
    Everywhere (Stacks most) (editAll flattenIn n).1 ↔ Everywhere (Stacks (most + 1)) n := by
  refine everywhere_editWithin_iff (f := stack) (fun n kids same => ?_) (fun n kids same => ?_)
    (fun n => ?_) done
  · exact stack_flattenIn same
  · exact stacks_flattenIn same
  · show (∀ c ∈ (flattenIn n).children, _) ↔ ∀ c ∈ n.children, _
    cases table : n.hasSourceTag Tag.table with
    | false => rw [flattenIn_of_other table]
    | true =>
      rw [children_flattenIn table]
      simp only [List.forall_mem_map, everywhere_unwrapped_iff fun n only inner _ =>
        stacks_of_other (not_table_of_section inner)]

theorem stacks_of_within {depth : Nat} {n : Node} (inside : Within depth n) :
    Everywhere (Stacks depth) n := by
  induction n using Node.induct with
  | element head children ih =>
    refine everywhere_element.mpr ⟨fun _ c member => ?_, fun c member => ih c member ?_⟩
    · obtain ⟨fewer, rfl, lower⟩ := inside.child member
      exact (stack_le lower).trans (Nat.le_succ fewer)
    · obtain ⟨fewer, rfl, lower⟩ := inside.child member
      exact lower.succ
  | _ => exact .of_childless rfl fun _ => by simp [Node.children]

theorem flattenIn_of_flat {n : Node} (flat : Flat n) : flattenIn n = n := by
  unfold flattenIn
  split
  · rename_i table
    have still : ∀ c ∈ n.children, unwrapped c = c := by
      intro c member
      unfold unwrapped
      split
      · rename_i inner
        split
        · rename_i only one
          exact absurd (congrArg List.length one) (flat table c member inner)
        · rfl
      · rfl
    rw [flattenTable, List.map_congr_left still, List.map_id', Node.withChildren_children]
  · rfl

theorem flattened_still_iff {n : Node} (inside : Within maxDepth n) :
    (editAll flattenIn n).1 = n ↔ Everywhere Flat n := by
  constructor
  · intro still
    have done := (editWithin_of_within flattenIn_within inside (Nat.lt_succ_self maxDepth)).1
    -- What is not flat has a highest stack somewhere, and flattening makes that lower.
    have lower : ∀ most, Everywhere (Stacks (most + 1)) n → Everywhere (Stacks most) n := by
      intro most stacked
      have flattened := (stacks_flattened done).mpr stacked
      rwa [still] at flattened
    have none : ∀ most, Everywhere (Stacks most) n → Everywhere (Stacks 0) n := by
      intro most
      induction most with
      | zero => exact id
      | succ most ih => exact fun stacked => ih (lower most stacked)
    exact (none maxDepth (stacks_of_within inside)).imp fun m => (flat_iff m).mpr
  · exact fun flat => editWithin_still (flat.imp fun _ => flattenIn_of_flat)

theorem exec_flattenTables {ctx : Context κ σ} (inside : Within maxDepth ctx.root) :
    (flattenTables : Action κ σ Unit).exec ctx =
        (.ok (), { ctx with root := (editAll flattenIn ctx.root).1 }) ∧
      Within maxDepth (editAll flattenIn ctx.root).1 := by
  obtain ⟨done, deep⟩ := editWithin_of_within flattenIn_within inside (Nat.lt_succ_self maxDepth)
  have ran : (flattenTables : Action κ σ Unit).exec ctx =
      ((edited flattenIn ctx.root).2, { ctx with root := (edited flattenIn ctx.root).1 }) :=
    Action.exec_editNodes flattenIn ctx
  have all : (editAll flattenIn ctx.root).2 = true := done
  refine ⟨?_, deep⟩
  rw [ran, edited_fst, edited_snd, if_pos all]

-- Flattening leaves a table flat, and then has nothing more to do, just where no section stands
-- alone in another one to start with. A child that takes the place of its section is not looked at
-- again, so that one section goes from every stack each time.
theorem flattenTables_unstacks {ctx : Context κ σ} (inside : Within maxDepth ctx.root) :
    ∃ result, (flattenTables : Action κ σ Unit).exec ctx = (.ok (), { ctx with root := result }) ∧
      (Everywhere Flat result ↔ Everywhere (Stacks 1) ctx.root) ∧
      ((flattenTables : Action κ σ Unit).exec { ctx with root := result } =
          (.ok (), { ctx with root := result }) ↔ Everywhere (Stacks 1) ctx.root) ∧
      ∀ most, Everywhere (Stacks most) result ↔ Everywhere (Stacks (most + 1)) ctx.root := by
  obtain ⟨ran, deep⟩ := exec_flattenTables inside
  have below : Within maxDepth { ctx with root := (editAll flattenIn ctx.root).1 }.root := deep
  obtain ⟨again, _⟩ := exec_flattenTables below
  have done := (editWithin_of_within flattenIn_within inside (Nat.lt_succ_self maxDepth)).1
  have every : ∀ most, Everywhere (Stacks most) (editAll flattenIn ctx.root).1 ↔
      Everywhere (Stacks (most + 1)) ctx.root := fun most => stacks_flattened done
  have flat : Everywhere Flat (editAll flattenIn ctx.root).1 ↔ Everywhere (Stacks 1) ctx.root := by
    rw [← every 0, funext fun n => propext (flat_iff n)]
  refine ⟨_, ran, flat, ?_, every⟩
  rw [again, ← flat, ← flattened_still_iff deep]
  simp

def plainTable : Node :=
  viewFrom "table" [viewFrom "thead" [viewFrom "tr" []], viewFrom "tbody" [viewFrom "tr" [], viewFrom "tr" []]]

theorem plainTable_unstacked :
    Within maxDepth plainTable ∧ Everywhere (Stacks 1) plainTable ∧
      ∃ result, (flattenTables : Action Empty Unit Unit).exec (holding plainTable) =
          (.ok (), holding result) ∧
        Everywhere Flat result ∧
        (flattenTables : Action Empty Unit Unit).exec (holding result) = (.ok (), holding result) := by
  have shallow : Within 3 plainTable := by
    simp [plainTable, viewFrom, Within, Branching.children, Node.children]
  have deep := shallow.mono (show 3 ≤ maxDepth by decide)
  have low : Everywhere (Stacks 1) plainTable := by
    simp [plainTable, viewFrom, everywhere_element]
    decide
  obtain ⟨result, ran, flat, still, _⟩ := flattenTables_unstacks (show Within maxDepth (holding plainTable).root from deep)
  exact ⟨deep, low, result, ran, flat.mpr low, still.mpr low⟩

def stackedTable : Node := viewFrom "table" [viewFrom "thead" [viewFrom "tbody" [viewFrom "tr" []]]]

theorem stackedTable_unflat :
    Within maxDepth stackedTable ∧
      ∃ result, (flattenTables : Action Empty Unit Unit).exec (holding stackedTable) =
          (.ok (), holding result) ∧
        ¬Everywhere Flat result ∧
        (flattenTables : Action Empty Unit Unit).exec (holding result) ≠ (.ok (), holding result) := by
  have shallow : Within 3 stackedTable := by
    simp [stackedTable, viewFrom, Within, Branching.children, Node.children]
  refine ⟨shallow.mono (by decide), viewFrom "table" [viewFrom "tbody" [viewFrom "tr" []]], rfl, ?_, ?_⟩
  · intro flat
    have top := (flat_iff _).mp flat.here
    revert top
    decide
  · have again : (flattenTables : Action Empty Unit Unit).exec
        (holding (viewFrom "table" [viewFrom "tbody" [viewFrom "tr" []]])) =
        (.ok (), holding (viewFrom "table" [viewFrom "tr" []])) := rfl
    rw [again]
    simp [holding, viewFrom]

end Passes
end SemanticMarkup
