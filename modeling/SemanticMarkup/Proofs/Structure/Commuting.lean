import SemanticMarkup.Proofs.Structure.Sections

namespace SemanticMarkup
open Walk

namespace Passes
variable {κ σ : Type} {own : Option String}

theorem not_list_of_table {n : Node} (table : n.hasSourceTag Tag.table = true) : isList n = false := by
  simp [isList, sourceTag_of_has table, Tag.isList, Tag.table]

theorem not_list_of_section {n : Node} (inner : isTableSection n = true) : isList n = false := by
  unfold isTableSection at inner
  obtain ⟨_, inner⟩ := Bool.and_eq_true_iff.mp inner
  cases tagged : n.sourceTag with
  | text tag =>
    have named : (tag = "thead" ∨ tag = "tbody") ∨ tag = "tfoot" := by
      simpa [tagged, Tag.isTableSection] using inner
    rcases named with (rfl | rfl) | rfl <;> simp [isList, tagged, Tag.isList]
  | _ => simp [tagged] at inner

theorem numbered_refills (own : Option String) (n : Node) :
    ∃ kids, numbered own n = n.withChildren kids := by
  cases n with
  | element head children => exact ⟨_, rfl⟩
  | _ => exact ⟨[], rfl⟩

theorem leaf?_numbered (own : Option String) (n : Node) : (numbered own n).leaf? = n.leaf? := by
  obtain ⟨kids, same⟩ := numbered_refills own n
  rw [same, leaf?_withChildren]

theorem hasSourceTag_numbered (own : Option String) (n : Node) (tag : String) :
    (numbered own n).hasSourceTag tag = n.hasSourceTag tag := by
  obtain ⟨kids, same⟩ := numbered_refills own n
  rw [same, Node.hasSourceTag_withChildren]

theorem isTableSection_numbered (own : Option String) (n : Node) :
    isTableSection (numbered own n) = isTableSection n := by
  obtain ⟨kids, same⟩ := numbered_refills own n
  rw [same, isTableSection_withChildren]

theorem numbered_element (own : Option String) (head : ElementHead) (children : List Node) :
    numbered own (.element head children) =
      .element head (fronted own (children.mapIdx fun place n =>
        numbered (label (.element head children) place) n)) := by
  rw [numbered, numberedAll_eq_mapIdx]

theorem numbered_of_other {head : ElementHead} {children : List Node}
    (other : isList (.element head children) = false) :
    numbered own (.element head children) =
      .element head (fronted own (children.map (numbered none))) := by
  have bare : children.mapIdx (fun _ n => numbered none n) = children.map (numbered none) :=
    List.ext_getElem (by simp) (by simp)
  have none : label (.element head children) = fun _ => .none := funext (label_of_other other)
  rw [numbered_element, none, bare]

theorem unwrapped_numbered (n : Node) : unwrapped (numbered none n) = numbered none (unwrapped n) := by
  cases inner : isTableSection n with
  | false =>
    have other : isTableSection (numbered none n) = false := (isTableSection_numbered none n).trans inner
    rw [unwrapped_of_other inner, unwrapped_of_other other]
  | true =>
    have still : isTableSection (numbered none n) = true := (isTableSection_numbered none n).trans inner
    rw [unwrapped, unwrapped, if_pos still, if_pos inner]
    cases n with
    | element head children =>
      rw [numbered_of_other (not_list_of_section inner)]
      match children with
      | [] => rfl
      | [only] => rfl
      | first :: second :: rest =>
        exact (numbered_of_other (not_list_of_section inner)).symm
    | _ => rfl

theorem flattenIn_numbered {n : Node} (owned : own.isSome = true → isItem n = true) :
    flattenIn (numbered own n) = numbered own (flattenIn n) := by
  cases table : n.hasSourceTag Tag.table with
  | false =>
    have other := (hasSourceTag_numbered own n Tag.table).trans table
    rw [flattenIn_of_other table, flattenIn_of_other other]
  | true =>
    have still := (hasSourceTag_numbered own n Tag.table).trans table
    cases own with
    | some name =>
      rw [not_table_of_isItem (owned rfl)] at table
      cases table
    | none =>
      rw [flattenIn, flattenIn, if_pos still, if_pos table]
      cases n with
      | element head children =>
        have tag : (Node.element head (children.map unwrapped)).hasSourceTag Tag.table = true := table
        rw [numbered_of_other (not_list_of_table table)]
        show Node.element head ((children.map (numbered none)).map unwrapped) =
          numbered none (.element head (children.map unwrapped))
        rw [numbered_of_other (not_list_of_table tag), fronted, List.map_map, List.map_map]
        exact congrArg (Node.element head) (List.map_congr_left fun c _ => unwrapped_numbered c)
      | _ => rfl

theorem label_map {f : Node → Node} (same : ∀ n, isItem (f n) = isItem n) (head : ElementHead)
    (children : List Node) (place : Nat) :
    label (.element head (children.map f)) place = label (.element head children) place := by
  have list : isList (.element head (children.map f)) = isList (.element head children) := rfl
  have tag : (Node.element head (children.map f)).hasSourceTag Tag.orderedList =
      (Node.element head children).hasSourceTag Tag.orderedList := rfl
  unfold label
  rw [list, tag]
  simp only [Node.children, List.getElem?_map, Option.any_map, ← List.map_take, List.countP_map,
    Function.comp_def, same]
  rfl

theorem isItem_flattened (levels : Nat) (n : Node) :
    isItem (editWithin flattenIn levels n).1 = isItem n := by
  refine editWithin_view (fun n kids _ => ?_) levels n
  exact (isItem_withChildren _ _).trans (hasSourceTag_flattenIn n Tag.listItem)

theorem leaf?_flattened (levels : Nat) (n : Node) : (editWithin flattenIn levels n).1.leaf? = n.leaf? := by
  refine editWithin_view (fun n kids _ => ?_) levels n
  obtain ⟨old, same⟩ := flattenIn_eq n
  exact (leaf?_withChildren _ _).trans (by rw [same, leaf?_withChildren])

theorem mem_numbered {head : ElementHead} {children : List Node} {place : Nat}
    (inside : place < children.length) (other : children[place].leaf? = none) :
    numbered (label (.element head children) place) children[place] ∈
      (numbered own (.element head children)).children := by
  rw [numbered_element]
  exact mem_fronted ((leaf?_numbered _ _).trans other) own (List.mem_mapIdx.mpr ⟨place, inside, rfl⟩)

theorem of_mem_fronted {n : Node} {kids : List Node} (member : n ∈ fronted own kids) :
    (∃ leaf, n = .text leaf) ∨ n ∈ kids := by
  revert member
  fun_cases fronted own kids with
  | case1 => exact .inr
  | case2 name leaf rest =>
    intro member
    rcases List.mem_cons.mp member with rfl | later
    · exact .inl ⟨_, rfl⟩
    · exact .inr (List.mem_cons_of_mem _ later)
  | case3 =>
    intro member
    rcases List.mem_cons.mp member with rfl | later
    · exact .inl ⟨_, rfl⟩
    · exact .inr later

theorem eq_nil_of_fronted {kids : List Node} (empty : fronted own kids = []) : own = none ∧ kids = [] := by
  revert empty
  fun_cases fronted own kids with
  | case1 => exact fun empty => ⟨rfl, empty⟩
  | case2 => exact fun empty => absurd empty (List.cons_ne_nil _ _)
  | case3 => exact fun empty => absurd empty (List.cons_ne_nil _ _)

theorem within_of_numbered {depth : Nat} {n : Node} (inside : Within depth (numbered own n)) :
    Within depth n := by
  induction depth generalizing own n with
  | zero =>
    cases n with
    | element head children =>
      rw [numbered_element] at inside
      have none := (eq_nil_of_fronted inside).2
      exact List.mapIdx_eq_nil_iff.mp none
    | _ => exact inside
  | succ depth ih =>
    cases n with
    | element head children =>
      intro c member
      obtain ⟨place, below, rfl⟩ := List.mem_iff_getElem.mp member
      cases given : children[place].leaf? with
      | some leaf =>
        have text := eq_text_of_leaf? given
        exact .of_childless (congrArg Node.children text) depth
      | none => exact ih (inside _ (mem_numbered below given))
    | _ => exact inside

theorem marking_done_of_childless {n : Node} (none : n.children = []) (levels : Nat) :
    (editWithin markListsIn (levels + 1) n).2 = true := by
  have still : Branching.children (markListsIn n) = [] := children_markListsIn none
  rw [editWithin_done, still]
  exact fun c member => by cases member

theorem marking_done {levels : Nat} {n : Node} (owned : own.isSome = true → isItem n = true)
    (inside : Within levels (numbered own n)) :
    (editWithin markListsIn (levels + 1) (labelled own n)).2 = true := by
  induction levels generalizing own n with
  | zero =>
    cases n with
    | element head children =>
      rw [numbered_element] at inside
      obtain ⟨rfl, none⟩ := eq_nil_of_fronted inside
      exact marking_done_of_childless (List.mapIdx_eq_nil_iff.mp none) 0
    | _ => exact marking_done_of_childless rfl 0
  | succ levels ih =>
    cases n with
    | element head children =>
      rw [editWithin_done, markListsIn_labelled owned]
      intro c member
      rcases of_mem_fronted member with ⟨leaf, rfl⟩ | among
      · exact marking_done_of_childless rfl levels
      · obtain ⟨place, below, rfl⟩ := List.mem_mapIdx.mp among
        cases given : children[place].leaf? with
        | some leaf =>
          rw [eq_text_of_leaf? given]
          exact marking_done_of_childless rfl levels
        | none =>
          exact ih (fun labels => isItem_of_label below labels) (inside _ (mem_numbered below given))
    | _ => exact marking_done_of_childless rfl (levels + 1)

theorem flattened_numbered {levels depth : Nat} {n : Node} (owned : own.isSome = true → isItem n = true)
    (inside : Within depth (numbered own n)) (lt : depth < levels) :
    (editWithin flattenIn levels (numbered own n)).1 = numbered own (editWithin flattenIn levels n).1 := by
  induction levels generalizing depth own n with
  | zero => omega
  | succ levels ih =>
    have done : ∀ m : Node, Within depth m →
        ∀ c ∈ Branching.children (flattenIn m), (editWithin flattenIn levels c).2 = true := by
      intro m within
      exact (editWithin_done flattenIn levels m).mp (editWithin_of_within flattenIn_within within lt).1
    rw [editWithin_all (done _ inside), editWithin_all (done _ (within_of_numbered inside)),
      flattenIn_numbered owned]
    have flat : Within depth (numbered own (flattenIn n)) := by
      rw [← flattenIn_numbered owned]
      exact flattenIn_within depth _ inside
    generalize flattenIn n = m at flat
    cases m with
    | element head children =>
      have below : ∀ place (here : place < children.length),
          (editWithin flattenIn levels
              (numbered (label (.element head children) place) children[place])).1 =
            numbered (label (.element head children) place)
              (editWithin flattenIn levels children[place]).1 := by
        intro place here
        cases given : children[place].leaf? with
        | some leaf =>
          have text : (editWithin flattenIn levels (.text leaf)).1 = .text leaf :=
            eq_text_of_leaf? (leaf?_flattened levels (.text leaf))
          rw [eq_text_of_leaf? given, text]
          exact text
        | none =>
          obtain ⟨fewer, rfl, deep⟩ := flat.child (mem_numbered here given)
          exact ih (fun labels => isItem_of_label here labels) deep (by omega)
      rw [numbered_element]
      show Node.element head (List.map _ (fronted own _)) = numbered own (.element head (children.map _))
      rw [numbered_element, map_fronted (leaf?_flattened levels)]
      refine congrArg (fun kids => Node.element head (fronted own kids)) ?_
      refine List.ext_getElem (by simp) fun place _ here => ?_
      simpa [label_map (isItem_flattened levels)] using below place (by simpa using here)
    | _ => rfl

theorem exec_markLists {ctx : Context κ σ} (inside : Within maxDepth (numbered none ctx.root)) :
    (markLists : Action κ σ Unit).exec ctx = (.ok (), { ctx with root := numbered none ctx.root }) := by
  have done : (editAll markListsIn (labelled none ctx.root)).2 = true :=
    marking_done (fun labels => by cases labels) inside
  rw [labelled_none] at done
  show (Action.editNodes markListsIn : Action κ σ Unit).exec ctx = _
  rw [Action.exec_editNodes, edited_fst, edited_snd, if_pos done, numbered_of_done done]

theorem exec_marked_first {ctx : Context κ σ} (inside : Within maxDepth (numbered none ctx.root)) :
    (do markLists; flattenTables : Action κ σ Unit).exec ctx =
      (.ok (), { ctx with root := (editAll flattenIn (numbered none ctx.root)).1 }) := by
  have deep : Within maxDepth { ctx with root := numbered none ctx.root }.root := inside
  rw [Action.exec_bind, exec_markLists inside]
  exact (exec_flattenTables deep).1

theorem exec_flattened_first {ctx : Context κ σ} (inside : Within maxDepth (numbered none ctx.root)) :
    (do flattenTables; markLists : Action κ σ Unit).exec ctx =
      (.ok (), { ctx with root := (editAll flattenIn (numbered none ctx.root)).1 }) := by
  have same : (editAll flattenIn (numbered none ctx.root)).1 = numbered none (editAll flattenIn ctx.root).1 :=
    flattened_numbered (fun labels => by cases labels) inside (Nat.lt_succ_self maxDepth)
  have low : Within maxDepth (numbered none (editAll flattenIn ctx.root).1) := by
    rw [← same]
    exact (editWithin_of_within flattenIn_within inside (Nat.lt_succ_self maxDepth)).2
  have deep : Within maxDepth
      (numbered none { ctx with root := (editAll flattenIn ctx.root).1 }.root) := low
  rw [Action.exec_bind, (exec_flattenTables (within_of_numbered inside)).1, same]
  exact exec_markLists deep

-- If marking the lists and then flattening the tables comes to an end, so does it the other way round,
-- and what comes out is the same.
theorem orders_agree {ctx after : Context κ σ}
    (returns : (do markLists; flattenTables : Action κ σ Unit).exec ctx = (.ok (), after)) :
    (do flattenTables; markLists : Action κ σ Unit).exec ctx = (.ok (), after) := by
  have inside : Within maxDepth (numbered none ctx.root) := by
    rw [Action.exec_bind] at returns
    match marked : (markLists : Action κ σ Unit).exec ctx with
    | (.error f, middle) =>
      rw [marked] at returns
      cases returns
    | (.ok (), middle) =>
      have ran : (Action.editNodes markListsIn : Action κ σ Unit).exec ctx = (.ok (), middle) := marked
      obtain ⟨done, _⟩ := Action.editNodes_ok ran
      rw [← numbered_of_done done]
      exact within_of_done done
  rw [exec_marked_first inside] at returns
  rw [exec_flattened_first inside, returns]

def mixedLists : Node :=
  viewFrom "ul" [
    viewFrom "li" [viewFrom "table" [
      viewFrom "thead" [viewFrom "li" [.text (Node.unmarked "a")]],
      viewFrom "tbody" [viewFrom "ol" [viewFrom "li" [], viewFrom "tfoot" [viewFrom "li" []]]]]],
    viewFrom "tbody" [viewFrom "li" []],
    viewFrom "li" [.text (Node.unmarked "b")]]

theorem mixedLists_agree :
    ∃ result, result ≠ mixedLists ∧
      (do markLists; flattenTables : Action Empty Unit Unit).exec (holding mixedLists) =
        (.ok (), holding result) ∧
      (do flattenTables; markLists : Action Empty Unit Unit).exec (holding mixedLists) =
        (.ok (), holding result) := by
  let result := viewFrom "ul" [
    viewFrom "li" [.text (markerLeaf "• "), viewFrom "table" [
      viewFrom "li" [.text (Node.unmarked "a")],
      viewFrom "ol" [viewFrom "li" [.text (markerLeaf "1. ")], viewFrom "tfoot" [viewFrom "li" []]]]],
    viewFrom "tbody" [viewFrom "li" []],
    viewFrom "li" [.text (Node.unmarked "• b")]]
  have ran : (do markLists; flattenTables : Action Empty Unit Unit).exec (holding mixedLists) =
      (.ok (), holding result) := rfl
  exact ⟨result, by simp [result, mixedLists, viewFrom], ran, orders_agree ran⟩

end Passes
end SemanticMarkup
