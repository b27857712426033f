import SemanticMarkup.Context
import SemanticMarkup.Proofs.Tree.Individuals
import SemanticMarkup.Proofs.Pipeline.Actions

namespace SemanticMarkup
open Walk

namespace Node

theorem at?_located (path : Path) (n : Node) (place : Path) :
    Walk.at? (⟨path, n⟩ : Located) place = (n.at? place).map fun c => ⟨path ++ place, c⟩ := by
  induction place generalizing path n with
  | nil => simp [Walk.at?, Node.at?]
  | cons i place ih =>
    have child : (Branching.children (⟨path, n⟩ : Located))[i]? =
        n.children[i]?.map fun c => ⟨path ++ [i], c⟩ := by
      change (Located.children ⟨path, n⟩)[i]? = _
      simp [Located.children, List.getElem?_zipIdx, Function.comp_def]
    rw [Walk.at?, Node.at?, child]
    cases n.children[i]? with
    | none => rfl
    | some c =>
      have below := ih (path ++ [i]) c
      rw [List.append_assoc] at below
      exact below

theorem walk_at? (n : Node) (path : Path) : Walk.at? n path = n.at? path := by
  induction path generalizing n with
  | nil => rfl
  | cons i path ih =>
    rw [Walk.at?, Node.at?]
    exact congrArg _ (funext ih)

theorem replace_at {root target replacement : Node} {parent : Path} {i : Nat}
    (stands : root.at? (parent ++ [i]) = some target) (near : NearBeside root (parent ++ [i])) :
    root.replace (some (parent ++ [i])) replacement =
      .inside (modifyAt (fun _ => replacement) (parent ++ [i]) root) := by
  rw [← walk_at?, Walk.at?_append] at stands
  obtain ⟨holder, above, _⟩ := Option.bind_eq_some_iff.mp stands
  have located : Walk.at? (⟨[], root⟩ : Located) parent = some ⟨parent, holder⟩ := by
    rw [at?_located, ← walk_at?, above]
    rfl
  have found : Walk.search (fun l => l.path == parent) (⟨[], root⟩ : Located) =
      .found ⟨parent, holder⟩ := by
    refine search_found located (beq_self_eq_true parent)
      (near parent holder not_prefix_parent above) fun earlier c less here => ?_
    rw [at?_located] at here
    obtain ⟨n, there, rfl⟩ := Option.map_eq_some_iff.mp here
    rw [← walk_at?] at there
    refine ⟨beq_false_of_ne fun same => ?_, near earlier n (not_prefix_of_lt less) there⟩
    rw [List.nil_append] at same
    exact List.lt_irrefl parent (same ▸ less)
  unfold replace
  split
  · rename_i nowhere
    simp at nowhere
  · rename_i path _ given
    cases given
    rw [List.dropLast_concat, found]
  · rename_i given
    cases given

theorem replace_none {root : Node} (inside : Within maxDepth root) (replacement : Node) :
    root.replace none replacement = .inside root := by
  simp [replace, tooDeep_of_within inside]

end Node

namespace Individual
variable {ι : Type} [DecidableEq ι]

-- The first node of a name in a list of children gives its place to another one.
def exchanged (target : ι) (replacement : Individual ι) : List (Individual ι) → List (Individual ι)
  | [] => []
  | child :: rest =>
    if child.name = target then replacement :: rest
    else child :: exchanged target replacement rest

mutual

def updated (changed : ι) (edit : List (Individual ι) → List (Individual ι)) :
    Individual ι → Individual ι
  | element name head children =>
    if name = changed then element name head (edit children)
    else element name head (updatedAll changed edit children)
  | text name leaf => text name leaf

def updatedAll (changed : ι) (edit : List (Individual ι) → List (Individual ι)) :
    List (Individual ι) → List (Individual ι)
  | [] => []
  | child :: rest => child.updated changed edit :: updatedAll changed edit rest

end

-- Replaces the node of a name. The search goes in document order through the nodes, up to the first
-- one that has the node among its children; in its list of children the other node comes to stand.
def replace (root : Individual ι) (target : ι) (replacement : Individual ι) :
    Except Fault (Individual ι) :=
  if root.name = target then .ok replacement
  else
    match search (fun n => n.children.any fun c => decide (c.name = target)) root with
    | .found parent => .ok (root.updated parent.name (exchanged target replacement))
    | .absent => .ok root
    | .tooDeep => .error depthFault

theorem updatedAll_eq (changed : ι) (edit : List (Individual ι) → List (Individual ι))
    (kids : List (Individual ι)) :
    updatedAll changed edit kids = kids.map (updated changed edit) := by
  induction kids with
  | nil => rfl
  | cons child rest ih => rw [updatedAll, ih, List.map_cons]

theorem updated_of_ne {n : Individual ι} {changed : ι} (differs : n.name ≠ changed)
    (edit : List (Individual ι) → List (Individual ι)) :
    n.updated changed edit = n.withChildren (n.children.map (updated changed edit)) := by
  cases n with
  | element name head children => exact (if_neg differs).trans (congrArg _ (updatedAll_eq ..))
  | text => rfl

theorem updated_of_not_mem {n : Individual ι} {changed : ι} (missing : changed ∉ n.names)
    (edit : List (Individual ι) → List (Individual ι)) : n.updated changed edit = n := by
  induction n using Walk.induct with
  | node n ih =>
    rw [names_eq, List.mem_cons, not_or] at missing
    obtain ⟨differs, below⟩ := missing
    have kids : n.children.map (updated changed edit) = n.children.map id :=
      List.map_congr_left fun c child =>
        ih c child fun member => below (List.mem_flatMap.mpr ⟨c, child, member⟩)
    rw [updated_of_ne (Ne.symm differs), kids, List.map_id]
    exact Branching.same n

theorem updated_name (n : Individual ι) (edit : List (Individual ι) → List (Individual ι)) :
    n.updated n.name edit = n.withChildren (edit n.children) := by
  cases n with
  | element => exact if_pos rfl
  | text => rfl

theorem updated_eq_putAt {root holder : Individual ι} {path : Path}
    (stands : at? root path = some holder) (alone : Confined root holder.name path)
    (edit : List (Individual ι) → List (Individual ι)) :
    root.updated holder.name edit =
      putAt (holder.withChildren (edit holder.children)) path root := by
  induction path generalizing root with
  | nil =>
    cases stands
    exact updated_name _ edit
  | cons i path ih =>
    obtain ⟨d, child, below⟩ := at?_cons_eq_some_iff.mp stands
    have differs : root.name ≠ holder.name := fun same =>
      absurd (alone [] root rfl same) (by simp)
    rw [updated_of_ne differs, putAt]
    refine congrArg (Branching.withChildren root) (List.ext_getElem? fun j => ?_)
    rw [List.getElem?_map, List.getElem?_modify]
    change _ = _ <$> root.children[j]?
    cases other : root.children[j]? with
    | none => rfl
    | some e =>
      by_cases here : i = j
      · subst here
        obtain rfl : d = e := Option.some.inj (child.symm.trans other)
        have inner : Confined d holder.name path := fun place c also named =>
          (List.cons_prefix_cons.mp
            (alone (i :: place) c (at?_cons_eq_some_iff.mpr ⟨d, child, also⟩) named)).2
        simp [ih below inner]
      · have missing : holder.name ∉ e.names := by
          intro member
          obtain ⟨place, c, also, named⟩ := exists_place_of_mem_names member
          exact here (List.cons_prefix_cons.mp
            (alone (j :: place) c (at?_cons_eq_some_iff.mpr ⟨e, other, also⟩) named)).1
        simp [updated_of_not_mem missing, here]

theorem exchanged_eq_set {kids : List (Individual ι)} {target : Individual ι} {i : Nat}
    (stands : kids[i]? = some target)
    (first : ∀ j c, j < i → kids[j]? = some c → c.name ≠ target.name) (replacement : Individual ι) :
    exchanged target.name replacement kids = kids.set i replacement := by
  induction kids generalizing i with
  | nil => cases stands
  | cons child rest ih =>
    cases i with
    | zero =>
      cases stands
      exact if_pos rfl
    | succ i =>
      rw [exchanged, if_neg (first 0 child (Nat.succ_pos i) rfl), List.set_cons_succ]
      exact congrArg _ (ih stands fun j c less here => first (j + 1) c (Nat.succ_lt_succ less) here)

theorem replace_putAt {root holder target : Individual ι} {parent : Path} {i : Nat}
    (above : at? root parent = some holder) (stands : at? root (parent ++ [i]) = some target)
    (near : NearBeside root (parent ++ [i])) (around : Confined root holder.name parent)
    (alone : Confined root target.name (parent ++ [i])) (replacement : Individual ι) :
    root.replace target.name replacement = .ok (putAt replacement (parent ++ [i]) root) := by
  rw [at?_concat above] at stands
  have inner : root.name ≠ target.name := fun same => by
    have short := alone [] root rfl same
    simp at short
  have found : search (fun n => n.children.any fun c => decide (c.name = target.name)) root =
      .found holder := by
    refine search_found above ?_ (near parent holder not_prefix_parent above) fun earlier n less here =>
      ⟨?_, near earlier n (not_prefix_of_lt less) here⟩
    · exact List.any_eq_true.mpr ⟨target, List.mem_of_getElem? stands, decide_eq_true rfl⟩
    · refine List.any_eq_false.mpr fun c member named => ?_
      obtain ⟨j, child⟩ := List.getElem?_of_mem member
      have lower := alone (earlier ++ [j]) c ((at?_concat here j).trans child) (of_decide_eq_true named)
      rcases List.prefix_concat_iff.mp lower with same | further
      · exact List.lt_irrefl parent ((List.append_inj_left' same rfl) ▸ less)
      · exact not_prefix_of_lt less further
  have slot : exchanged target.name replacement holder.children =
      holder.children.modify i (putAt replacement []) := by
    refine (exchanged_eq_set stands (fun j c less child named => ?_) replacement).trans
      (List.set_eq_modify replacement i holder.children)
    have lower := alone (parent ++ [j]) c ((at?_concat above j).trans child) named
    have same := (List.cons_prefix_cons.mp ((List.prefix_append_right_inj parent).mp lower)).1
    omega
  rw [replace, if_neg inner, found]
  dsimp only
  rw [updated_eq_putAt above around, slot, putAt_append [i] above]
  rfl

theorem replace_absent {root : Individual ι} {m : ι} (inside : Within maxDepth root)
    (missing : m ∉ root.names) (replacement : Individual ι) :
    root.replace m replacement = .ok root := by
  have differs : root.name ≠ m := fun same => missing (same ▸ name_mem_names root)
  have absent : search (fun n => n.children.any fun c => decide (c.name = m)) root = .absent := by
    refine search_absent inside fun path n here => List.any_eq_false.mpr fun c member named => ?_
    obtain ⟨j, child⟩ := List.getElem?_of_mem member
    have stands := (at?_concat here j).trans child
    exact missing ((of_decide_eq_true named) ▸ mem_names_of_at? stands)
  rw [replace, if_neg differs, absent]

theorem replace_at_place {root target : Individual ι} {path : Path}
    (stands : at? root path = some target) (near : NearBeside root path) (marked : Marked root path)
    (replacement : Individual ι) :
    root.replace target.name replacement = .ok (putAt replacement path root) := by
  rcases List.eq_nil_or_concat' path with rfl | ⟨parent, i, rfl⟩
  · cases stands
    exact if_pos rfl
  · rw [at?_append] at stands
    obtain ⟨holder, above, child⟩ := Option.bind_eq_some_iff.mp stands
    rw [← at?_append] at stands
    exact replace_putAt above stands near (marked parent holder (List.prefix_append parent [i]) above)
      (marked _ target (List.prefix_refl _) stands) replacement

end Individual

namespace Action
variable {κ σ : Type}

theorem exec_replaceNode (target : Option Path) (replacement : Node) (ctx : Context κ σ) :
    (replaceNode target replacement).exec ctx =
      match ctx.root.replace target replacement with
      | .top n => (.ok (), { ctx with root := n })
      | .inside n => (.ok (), { ctx with root := n })
      | .tooDeep => (.error depthFault, ctx) := by
  unfold replaceNode
  rw [exec_get_bind]
  cases ctx.root.replace target replacement <;> rfl

theorem exec_replaceNode_at {ι : Type} {root target : Individual ι} {path : Path}
    (stands : at? root path = some target) (near : NearBeside root path) (replacement : Individual ι)
    (ctx : Context κ σ) :
    (replaceNode (some path) replacement.plain).exec { ctx with root := root.plain } =
      (.ok (), { ctx with root := (putAt replacement path root).plain }) := by
  rw [exec_replaceNode]
  rcases List.eq_nil_or_concat' path with rfl | ⟨parent, i, rfl⟩
  · rfl
  · have there : root.plain.at? (parent ++ [i]) = some target.plain := by
      rw [Individual.at?_plain, stands]
      rfl
    have close : NearBeside root.plain (parent ++ [i]) := by
      intro place c beside here
      rw [Node.walk_at?, Individual.at?_plain] at here
      obtain ⟨d, old, _⟩ := Option.map_eq_some_iff.mp here
      exact near place d beside old
    dsimp only
    rw [Node.replace_at there close, Individual.plain_putAt]

theorem exec_replaceNode_none {ι : Type} {root : Individual ι} (inside : Within maxDepth root)
    (replacement : Individual ι) (ctx : Context κ σ) :
    (replaceNode none replacement.plain).exec { ctx with root := root.plain } =
      (.ok (), { ctx with root := root.plain }) := by
  rw [exec_replaceNode]
  dsimp only
  rw [Node.replace_none (Individual.within_plain inside)]

end Action

namespace Individual
variable {ι : Type} [DecidableEq ι] {κ σ : Type}

-- A replacement changes one slot and can be taken back: the nodes are told apart by their names, and
-- the actions, which are given places, do the same to the trees as they look.
theorem replace_one_slot {root target replacement : Individual ι} (distinct : root.names.Nodup)
    (shallow : height root ≤ maxDepth) (fresh : ∀ m ∈ replacement.names, m ∉ root.names)
    (own : target.name ∈ root.names → ∃ path, at? root path = some target) :
    ∃ result, root.replace target.name replacement = .ok result ∧
      result.replace replacement.name target = .ok root ∧
      (target.name = root.name → result = replacement) ∧
      (target.name ≠ root.name → result.name = root.name) ∧
      (∀ path, at? root path = some target → ExchangedAt root result replacement path ∧
        ∀ ctx : Context κ σ,
          (Action.replaceNode (some path) replacement.plain).exec { ctx with root := root.plain } =
            (.ok (), { ctx with root := result.plain }) ∧
          (Action.replaceNode (some path) target.plain).exec { ctx with root := result.plain } =
            (.ok (), { ctx with root := root.plain })) ∧
      (target.name ∉ root.names → result = root ∧
        ∀ ctx : Context κ σ,
          (Action.replaceNode none replacement.plain).exec { ctx with root := root.plain } =
            (.ok (), { ctx with root := root.plain })) := by
  have inside : Within maxDepth root := height_le_iff.mp shallow
  have new : replacement.name ∉ root.names := fresh _ (name_mem_names replacement)
  by_cases occurs : target.name ∈ root.names
  · obtain ⟨path, stands⟩ := own occurs
    have near := nearBeside_of_within inside path
    have marked : Marked root path := fun place b _ here => confined_of_nodup distinct here
    have placed : at? (putAt replacement path root) path = some replacement := by
      have top := at?_putAt_append stands ([] : Path) (b := replacement)
      rwa [List.append_nil] at top
    have restored : putAt target path (putAt replacement path root) = root :=
      putAt_putAt (fun a _ _ _ => by cases a <;> rfl) stands
    have back := replace_at_place placed (nearBeside_putAt near replacement)
      (marked_putAt distinct new stands) target
    refine ⟨putAt replacement path root, replace_at_place stands near marked replacement, ?_, ?_, ?_,
      ?_, fun missing => absurd occurs missing⟩
    · rw [back, restored]
    · intro same
      have top : at? root [] = some root := rfl
      rw [place_unique distinct stands top same]
      rfl
    · intro differs
      cases path with
      | nil =>
        cases stands
        exact absurd rfl differs
      | cons i path => exact name_withChildren root _
    · intro place here
      obtain rfl := place_unique distinct stands here rfl
      refine ⟨⟨at?_putAt_append stands, fun _ => view_putAt face_withChildren root replacement⟩,
        fun ctx => ⟨Action.exec_replaceNode_at stands near replacement ctx, ?_⟩⟩
      have again := Action.exec_replaceNode_at placed (nearBeside_putAt near replacement) target ctx
      rwa [restored] at again
  · refine ⟨root, replace_absent inside occurs replacement, replace_absent inside new target, ?_,
      fun _ => rfl, ?_, fun _ => ⟨rfl, Action.exec_replaceNode_none inside replacement⟩⟩
    · intro same
      exact absurd (same ▸ name_mem_names root) occurs
    · intro path here
      exact absurd (mem_names_of_at? here) occurs

def said : TextLeaf := ⟨.text "x", .null, .null, .null, .null⟩

def twins : Individual Nat :=
  .element 0 ⟨.text "root", .record [], .null, .absent, .null⟩ [.text 1 said, .text 2 said]

def picture : Individual Nat := .element 3 ⟨.text "image", .record [], .null, .absent, .null⟩ []

theorem twin_replaced :
    ∃ result, twins.replace 2 picture = .ok result ∧ at? result [1] = some picture ∧
      (at? result [0]).map face = some (1, .text said, 0) ∧
      result.replace 3 (.text 2 said) = .ok twins := by
  have level : Within 1 twins := by
    intro c member
    rcases List.mem_pair.mp member with rfl | rfl <;> rfl
  have shallow : height twins ≤ maxDepth := height_le_iff.mpr (level.mono (by decide))
  have distinct : twins.names.Nodup := by decide
  have fresh : ∀ m ∈ picture.names, m ∉ twins.names := by decide
  have second : at? twins [1] = some (.text 2 said) := rfl
  obtain ⟨result, replaced, back, _, _, exchanged, _⟩ :=
    replace_one_slot (κ := Unit) (σ := Unit) distinct shallow fresh fun _ => ⟨[1], second⟩
  have once := (exchanged [1] second).1
  exact ⟨result, replaced, once.inside [], once.outside [0] (by decide), back⟩

end Individual
end SemanticMarkup
