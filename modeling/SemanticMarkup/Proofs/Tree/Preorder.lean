import SemanticMarkup.Proofs.Conversion.Nesting
import SemanticMarkup.Proofs.Tree.Places

namespace SemanticMarkup.Walk
variable {α : Type} [Branching α]

-- Everything in a tree in document order, a thing before its children and those in their order.
def preorder (a : α) : List α := a :: (Branching.children a).attach.flatMap fun c => preorder c.1
termination_by Branching.size a
decreasing_by exact size_lt_of_mem c.2

def withinReach (a : α) : List α := ((withDepths 0 a).takeWhile reachable).map Prod.fst

def overdeep (a : α) : Bool := (withDepths 0 a).any fun w => decide (maxDepth < w.2)

theorem preorder_eq (a : α) : preorder a = a :: (Branching.children a).flatMap preorder := by
  have kids := List.flatMap_map Subtype.val preorder (l := (Branching.children a).attach)
  rw [List.attach_map_subtype_val] at kids
  rw [preorder, kids]

theorem map_fst_withDepths (depth : Nat) (a : α) : (withDepths depth a).map Prod.fst = preorder a := by
  induction a using induct generalizing depth with
  | node a ih =>
    rw [withDepths_eq, preorder_eq, List.map_cons, List.map_flatMap]
    exact congrArg (a :: ·) (List.flatMap_congr fun c member => ih c member (depth + 1))

theorem all_reachable (a : α) : (withDepths 0 a).all reachable = !overdeep a := by
  have same : reachable = fun w : α × Nat => !decide (maxDepth < w.2) := by
    funext w
    rw [reachable, ← decide_not, decide_eq_decide]
    exact Nat.not_lt.symm
  rw [overdeep, List.not_any_eq_all_not, same]

theorem nodes_withinReach (a : α) : nodes a = ⟨withinReach a, overdeep a⟩ := by
  rw [nodes_withDepths, all_reachable, Bool.not_not]
  rfl

theorem withinReach_begins (a : α) : withinReach a <+: preorder a := by
  rw [withinReach, ← map_fst_withDepths 0]
  exact (List.takeWhile_prefix _).map Prod.fst

theorem withinReach_of_shallow {a : α} (shallow : overdeep a = false) : withinReach a = preorder a := by
  have near : (withDepths 0 a).all reachable = true := by rw [all_reachable, shallow, Bool.not_false]
  rw [withinReach, List.takeWhile_eq_self_iff.mpr (List.all_eq_true.mp near), map_fst_withDepths]

variable {a b : α} {p : α → Bool}

theorem all_withinReach (a : α) :
    all a = if overdeep a then .error depthFault else .ok (preorder a) := by
  rw [all, nodes_withinReach]
  cases deep : overdeep a with
  | true => rfl
  | false => exact congrArg Except.ok (withinReach_of_shallow deep)

theorem filtered_withinReach (p : α → Bool) (a : α) :
    filtered p a = if overdeep a then .error depthFault else .ok ((preorder a).filter p) := by
  rw [filtered, all_withinReach]
  cases overdeep a with
  | true => rfl
  | false => rfl

theorem found_before (found : (withinReach a).find? p = some b) :
    reaches p a = .ok true ∧ first? p a = .ok (some b) := by
  have any : (withinReach a).any p = true :=
    List.any_eq_true.mpr ⟨b, List.mem_of_find?_eq_some found, List.find?_some found⟩
  rw [reaches_nodes, first?_nodes, nodes_withinReach]
  exact ⟨if_pos any, by rw [found]⟩

theorem missed_before (missed : ∀ b ∈ withinReach a, p b = false) (deep : overdeep a = true) :
    reaches p a = .error depthFault ∧ first? p a = .error depthFault := by
  have none : (withinReach a).find? p = none :=
    List.find?_eq_none.mpr fun b member => Bool.eq_false_iff.mp (missed b member)
  have notAny : (withinReach a).any p = false :=
    List.any_eq_false.mpr fun b member => Bool.eq_false_iff.mp (missed b member)
  rw [reaches_nodes, first?_nodes, nodes_withinReach]
  simp only [notAny, none, deep]
  exact ⟨rfl, rfl⟩

theorem searched_whole (p : α → Bool) (shallow : overdeep a = false) :
    reaches p a = .ok ((preorder a).any p) ∧ first? p a = .ok ((preorder a).filter p).head? := by
  rw [reaches_nodes, first?_nodes, nodes_withinReach, withinReach_of_shallow shallow, shallow,
    List.head?_filter]
  refine ⟨?_, ?_⟩
  · cases (preorder a).any p with
    | true => rfl
    | false => rfl
  · cases (preorder a).find? p with
    | none => rfl
    | some b => rfl

-- A walk over a markup tree or a semantic tree goes through it in document order up to the first
-- thing that is too deep, and whoever follows it sees just that, as long as it does not leave: what
-- it looks for is found before a fault that lies behind. Only a search of the whole tree meets
-- every fault.
theorem walks_in_order (a : α) :
    nodes a = ⟨withinReach a, overdeep a⟩ ∧ withinReach a <+: preorder a ∧
    (∀ (σ : Type) (visit : α → σ → ForInStep σ) (s : σ),
      through visit a s = ending (overdeep a) (visits visit (withinReach a) s)) ∧
    all a = (if overdeep a then .error depthFault else .ok (preorder a)) ∧
    ∀ p : α → Bool,
      (∀ b, (withinReach a).find? p = some b → reaches p a = .ok true ∧ first? p a = .ok (some b)) ∧
      (overdeep a = true → filtered p a = .error depthFault ∧
        ((∀ b ∈ withinReach a, p b = false) →
          reaches p a = .error depthFault ∧ first? p a = .error depthFault)) ∧
      (overdeep a = false → filtered p a = .ok ((preorder a).filter p) ∧
        reaches p a = .ok ((preorder a).any p) ∧ first? p a = .ok ((preorder a).filter p).head?) := by
  refine ⟨nodes_withinReach a, withinReach_begins a, fun σ visit s => ?_, all_withinReach a, fun p => ⟨?_, ?_, ?_⟩⟩
  · rw [through_nodes, nodes_withinReach]
  · exact fun b found => found_before found
  · intro deep
    refine ⟨?_, fun missed => missed_before missed deep⟩
    rw [filtered_withinReach, if_pos deep]
  · intro shallow
    refine ⟨?_, searched_whole p shallow⟩
    rw [filtered_withinReach, shallow]
    rfl

theorem withDepths_tower (depth levels : Nat) :
    withDepths depth (Passes.tower levels) =
      (List.range (levels + 1)).map fun i => (Passes.tower (levels - i), depth + i) := by
  induction levels generalizing depth with
  | zero =>
    rw [withDepths_eq]
    rfl
  | succ levels ih =>
    have kids : Branching.children (Passes.tower (levels + 1)) = [Passes.tower levels] := rfl
    rw [withDepths_eq, kids, List.flatMap_singleton, ih (depth + 1),
      List.range_succ_eq_map (n := levels + 1), List.map_cons, List.map_map]
    refine congrArg ((Passes.tower (levels + 1), depth) :: ·) (List.map_congr_left fun i _ => ?_)
    simp only [Function.comp, Nat.succ_eq_add_one, Nat.add_sub_add_right, Nat.add_assoc, Nat.add_comm 1 i]

def shaft : Ast := .node .root [.node (.text "top") [], Passes.tower 512]

theorem withDepths_shaft :
    withDepths 0 shaft = (shaft, 0) :: (.node (.text "top") [], 1) :: withDepths 1 (Passes.tower 512) := by
  rw [withDepths_eq]
  show (shaft, 0) :: [Ast.node (.text "top") [], Passes.tower 512].flatMap (withDepths 1) = _
  rw [List.flatMap_cons, List.flatMap_singleton, withDepths_eq 1 (Ast.node (.text "top") [])]
  rfl

theorem shaft_overdeep : overdeep shaft = true := by
  refine List.any_eq_true.mpr ⟨(Passes.tower 0, 513), ?_, rfl⟩
  rw [withDepths_shaft, withDepths_tower]
  exact List.mem_cons_of_mem _ (List.mem_cons_of_mem _
    (List.mem_map.mpr ⟨512, List.mem_range.mpr (by decide), rfl⟩))

theorem shaft_unflagged {a : Ast} (member : a ∈ withinReach shaft) : a.head.blank = false := by
  have plain : ∀ levels, (Passes.tower levels).head.blank = false := by
    intro levels
    cases levels with
    | zero => rfl
    | succ levels => rfl
  have inside := (withinReach_begins shaft).subset member
  rw [← map_fst_withDepths 0, withDepths_shaft, withDepths_tower] at inside
  obtain ⟨w, told, rfl⟩ := List.mem_map.mp inside
  rcases List.mem_cons.mp told with rfl | later
  · rfl
  rcases List.mem_cons.mp later with rfl | below
  · rfl
  · obtain ⟨i, _, rfl⟩ := List.mem_map.mp below
    exact plain _

def fork : Node := Node.root.withChildren [.root, .root]

theorem withDepths_fork : withDepths 0 fork = [(fork, 0), (.root, 1), (.root, 1)] := by
  rw [withDepths_eq]
  show (fork, 0) :: [Node.root, Node.root].flatMap (withDepths 1) = _
  rw [List.flatMap_cons, List.flatMap_singleton, withDepths_eq 1 Node.root]
  rfl

theorem shaft_searched :
    (first? (fun a => a.head.isText) shaft = .ok (some (.node (.text "top") [])) ∧
      reaches (fun a => a.head.isText) shaft = .ok true ∧
      filtered (fun a => a.head.isText) shaft = .error depthFault) ∧
    (first? (fun a => a.head.blank) shaft = .error depthFault ∧
      reaches (fun a => a.head.blank) shaft = .error depthFault) ∧
    filtered (fun n => n.children.isEmpty) fork = .ok [.root, .root] := by
  have found : (withinReach shaft).find? (fun a => a.head.isText) = some (.node (.text "top") []) := by
    rw [withinReach, withDepths_shaft]
    rfl
  have shallow : overdeep fork = false := by
    rw [overdeep, withDepths_fork]
    rfl
  obtain ⟨_, _, _, _, searches⟩ := walks_in_order shaft
  obtain ⟨hit, deep, _⟩ := searches fun a => a.head.isText
  obtain ⟨yes, first⟩ := hit _ found
  obtain ⟨no, none⟩ := ((searches fun a => a.head.blank).2.1 shaft_overdeep).2 fun _ => shaft_unflagged
  obtain ⟨_, _, _, _, whole⟩ := walks_in_order fork
  have leaves := ((whole fun n => n.children.isEmpty).2.2 shallow).1
  rw [← map_fst_withDepths 0, withDepths_fork] at leaves
  exact ⟨⟨first, yes, (deep shaft_overdeep).1⟩, ⟨none, no⟩, leaves⟩

end SemanticMarkup.Walk
