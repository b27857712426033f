import SemanticMarkup.Node.Validate

namespace SemanticMarkup

namespace Specimen

@[elab_as_elim]
theorem induct {motive : Specimen → Prop}
    (element : ∀ head children, (∀ c ∈ children, motive c) → motive (.element head children))
    (barren : ∀ head, motive (.barren head)) (text : ∀ leaf, motive (.text leaf))
    (alien : ∀ kind, motive (.alien kind)) (s : Specimen) : motive s := by
  refine @Specimen.rec motive (fun children => ∀ c ∈ children, motive c) element barren text alien
    ?_ ?_ s
  · intro c member
    cases member
  · intro first rest one others c member
    rcases List.mem_cons.mp member with rfl | later
    · exact one
    · exact others c later

-- A node that has nothing wrong by itself, whatever stands below it and for its capabilities.
def WellFormed : Specimen → Prop
  | .element head children =>
    (∃ name, name ≠ "" ∧ head.tag = .text name) ∧ (∃ table, head.props = .record table) ∧
      (head.capabilities.saysVoid = true → children = [])
  | .text leaf =>
    (∃ s, leaf.content = .text s) ∧
      (leaf.marks = .null ∨ ∃ marks, leaf.marks = .record marks ∧
        ∀ entry ∈ marks, entry.1 ∈ Validate.markNames ∧ ∃ b, entry.2 = .flag b)
  | .barren _ | .alien _ => False

def foreign? (s : Specimen) : Option Value := s.head?.bind fun head => head.capabilities.foreign?

end Specimen

def Node.WellFormed (n : Node) : Prop := n.specimen.WellFormed

namespace Validate

mutual

def placesFrom (path : List String) : Specimen → List Place
  | .element head children => ⟨path, .element head children⟩ :: placesFromAll path 0 children
  | s => [⟨path, s⟩]

def placesFromAll (path : List String) (index : Nat) : List Specimen → List Place
  | [] => []
  | s :: rest => placesFrom (path ++ [describe s index]) s ++ placesFromAll path (index + 1) rest

end

def places (list : List Specimen) : List Place := placesFromAll [] 0 list

-- A list holds a node when it is reached through lists of children. The path to it names each node on the
-- way with its place in the list that it is in, and the node itself at the end.
inductive Holds (list : List Specimen) : List String → Specimen → Prop where
  | top {index : Nat} {s : Specimen} (given : list[index]? = some s) : Holds list [describe s index] s
  | child {path : List String} {parent s : Specimen} {index : Nat} (above : Holds list path parent)
    (given : parent.children[index]? = some s) : Holds list (path ++ [describe s index]) s

structure Place.Clear (p : Place) : Prop where
  shallow : p.path.length ≤ maxDepth
  wellFormed : p.node.WellFormed
  known : p.node.foreign? = none

-- The fault that a place is reported with: depth counts before what is wrong with the node. Capabilities
-- that are none are come upon where nothing else is wrong, and then neither node nor path are told.
inductive Offends (p : Place) : Fault → Prop where
  | deep (deep : maxDepth < p.path.length) :
    Offends p (.tooDeep depthLimit "validate" .null none)
  | invalid {message : String} (shallow : p.path.length ≤ maxDepth) (wrong : ¬p.node.WellFormed)
    (told : problem? p.node = some (.invalid message)) :
    Offends p (.invalidNode (.text message) p.node p.path)
  | unreadable {limits : Value} (shallow : p.path.length ≤ maxDepth) (fine : p.node.WellFormed)
    (strange : p.node.foreign? = some limits) : Offends p (.missingAttribute limits.typeName "is_void")

theorem marksProblem_eq_none_iff (marks : Table Value) :
    marksProblem? marks = none ↔
      ∀ entry ∈ marks, entry.1 ∈ markNames ∧ ∃ b, entry.2 = .flag b := by
  unfold marksProblem?
  dsimp only
  split
  · rename_i unknown
    obtain ⟨key, among, strange⟩ : ∃ key ∈ Table.keys marks, key ∉ markNames := by
      simpa using unknown
    obtain ⟨entry, inside, rfl⟩ := List.mem_map.mp among
    exact iff_of_false nofun fun all => strange (all entry inside).1
  · rename_i known
    have named : ∀ key ∈ Table.keys marks, key ∈ markNames := by simpa using known
    rw [List.findSome?_eq_none_iff]
    refine forall₂_congr fun entry inside => ?_
    rw [and_iff_right (named entry.1 (List.mem_map.mpr ⟨entry, inside, rfl⟩))]
    split
    · rename_i b same
      simp [same]
    · rename_i other
      simpa using other

theorem elementProblem_of_wellFormed {head : ElementHead} {children : List Specimen}
    (fine : (Specimen.element head children).WellFormed) :
    elementProblem? head (some children) = head.capabilities.foreign?.map .unreadable := by
  obtain ⟨⟨name, filled, tag⟩, ⟨table, props⟩, void⟩ := fine
  unfold elementProblem?
  rw [tag, props]
  cases head.capabilities.foreign? with
  | some limits => simp
  | none => simpa using void

theorem elementProblem_of_not_wellFormed {head : ElementHead} {children : List Specimen}
    (wrong : ¬(Specimen.element head children).WellFormed) :
    ∃ message, elementProblem? head (some children) = some (.invalid message) := by
  unfold elementProblem?
  split
  · exact ⟨_, rfl⟩
  · exact ⟨_, rfl⟩
  · rename_i name kids table filled tag given props
    cases given
    have named : ∃ name, name ≠ "" ∧ head.tag = .text name :=
      ⟨name, filled, tag⟩
    have void : ¬(head.capabilities.saysVoid = true → children = []) :=
      fun void => wrong ⟨named, ⟨table, props⟩, void⟩
    obtain ⟨closed, filled⟩ := Classical.not_imp.mp void
    cases strange : head.capabilities.foreign? with
    | some limits =>
      rw [Limits.saysVoid_of_foreign strange] at closed
      cases closed
    | none => simp [closed, filled]
  · exact ⟨_, rfl⟩
  · exact ⟨_, rfl⟩

theorem textProblem_eq_none_iff (leaf : TextLeaf) :
    textProblem? leaf = none ↔ (Specimen.text leaf).WellFormed := by
  obtain ⟨content, marks, styles, classes, annotations⟩ := leaf
  cases content with
  | text s =>
    cases marks with
    | record table => simp [textProblem?, Specimen.WellFormed, marksProblem_eq_none_iff]
    | _ => simp [textProblem?, Specimen.WellFormed]
  | _ => simp [textProblem?, Specimen.WellFormed]

theorem problem_of_wellFormed {s : Specimen} (fine : s.WellFormed) :
    problem? s = s.foreign?.map .unreadable := by
  cases s with
  | element head children => exact elementProblem_of_wellFormed fine
  | text leaf => rw [problem?, (textProblem_eq_none_iff leaf).mpr fine]; rfl
  | _ => exact fine.elim

theorem problem_of_not_wellFormed {s : Specimen} (wrong : ¬s.WellFormed) :
    ∃ message, problem? s = some (.invalid message) := by
  cases s with
  | element head children => exact elementProblem_of_not_wellFormed wrong
  | text leaf =>
    rw [← textProblem_eq_none_iff] at wrong
    obtain ⟨message, told⟩ := Option.ne_none_iff_exists'.mp wrong
    exact ⟨message, by rw [problem?, told]; rfl⟩
  | barren head =>
    rw [problem?]
    unfold elementProblem?
    split
    · exact ⟨_, rfl⟩
    · exact ⟨_, rfl⟩
    · rename_i given _
      cases given
    · rename_i given _
      cases given
    · exact ⟨_, rfl⟩
  | alien kind =>
    rw [problem?]
    split
    · exact ⟨_, rfl⟩
    · split <;> exact ⟨_, rfl⟩

theorem fault_of_deep {p : Place} (deep : maxDepth < p.path.length) :
    fault? p = some (.tooDeep depthLimit "validate" .null none) := if_pos deep

theorem fault_of_shallow {p : Place} (shallow : p.path.length ≤ maxDepth) :
    fault? p = (problem? p.node).map (Problem.fault p) := if_neg (Nat.not_lt.mpr shallow)

theorem fault_eq_some_iff (p : Place) (fault : Fault) : fault? p = some fault ↔ Offends p fault := by
  constructor
  · intro reported
    rcases Nat.lt_or_ge maxDepth p.path.length with deep | shallow
    · cases (fault_of_deep deep).symm.trans reported
      exact .deep deep
    · rw [fault_of_shallow shallow] at reported
      by_cases fine : p.node.WellFormed
      · rw [problem_of_wellFormed fine, Option.map_map] at reported
        obtain ⟨limits, strange, rfl⟩ := Option.map_eq_some_iff.mp reported
        exact .unreadable shallow fine strange
      · obtain ⟨message, told⟩ := problem_of_not_wellFormed fine
        rw [told] at reported
        cases reported
        exact .invalid shallow fine told
  · rintro (deep | ⟨shallow, wrong, told⟩ | ⟨shallow, fine, strange⟩)
    · exact fault_of_deep deep
    · rw [fault_of_shallow shallow, told]
      rfl
    · rw [fault_of_shallow shallow, problem_of_wellFormed fine, strange]
      rfl

theorem fault_eq_none_iff (p : Place) : fault? p = none ↔ p.Clear := by
  constructor
  · intro silent
    have shallow : p.path.length ≤ maxDepth :=
      Nat.not_lt.mp fun deep => by cases (fault_of_deep deep).symm.trans silent
    rw [fault_of_shallow shallow, Option.map_eq_none_iff] at silent
    have fine : p.node.WellFormed := by
      refine Classical.byContradiction fun wrong => ?_
      obtain ⟨message, told⟩ := problem_of_not_wellFormed wrong
      cases told.symm.trans silent
    rw [problem_of_wellFormed fine, Option.map_eq_none_iff] at silent
    exact ⟨shallow, fine, silent⟩
  · rintro ⟨shallow, fine, known⟩
    rw [fault_of_shallow shallow, problem_of_wellFormed fine, known]
    rfl

def Place.tree (p : Place) : List Place := placesFrom p.path p.node

theorem placesFromAll_eq_flatMap (path : List String) (index : Nat) (list : List Specimen) :
    placesFromAll path index list =
      ((list.zipIdx index).map fun (n, i) => (⟨path ++ [describe n i], n⟩ : Place)).flatMap
        Place.tree := by
  induction list generalizing index with
  | nil => rfl
  | cons n rest ih => simp [placesFromAll, ih, Place.tree]

theorem Place.tree_eq (p : Place) : p.tree = p :: p.children.flatMap Place.tree := by
  obtain ⟨path, n⟩ := p
  cases n with
  | element head children =>
    simp only [Place.tree, placesFrom, placesFromAll_eq_flatMap]
    rfl
  | _ => rfl

theorem run_eq_findSome (waiting : List Place) :
    run waiting = (waiting.flatMap Place.tree).findSome? fault? := by
  induction waiting using run.induct with
  | case1 => rw [run]; rfl
  | case2 p waiting fault wrong =>
    rw [run, wrong, List.flatMap_cons, Place.tree_eq, List.cons_append, List.findSome?_cons, wrong]
  | case3 p waiting right ih =>
    rw [run, right, List.flatMap_cons, Place.tree_eq, List.cons_append, List.findSome?_cons, right]
    simpa using ih

theorem specimen_eq (path : List String) (n : Specimen) :
    specimen path n = ((placesFrom path n).findSome? fault?).elim (.ok ()) .error := by
  rw [specimen, run_eq_findSome, List.flatMap_singleton, Place.tree]
  cases (placesFrom path n).findSome? fault? <;> rfl

theorem specimens_eq (list : List Specimen) :
    specimens list = ((places list).findSome? fault?).elim (.ok ()) .error := by
  unfold specimens places
  generalize 0 = index
  induction list generalizing index with
  | nil => rfl
  | cons n rest ih =>
    rw [List.zipIdx_cons]
    change (do specimen [describe n index] n; (rest.zipIdx (index + 1)).forM _) = _
    rw [ih, placesFromAll, List.findSome?_append, List.nil_append, specimen_eq]
    cases (placesFrom [describe n index] n).findSome? fault? <;> rfl

theorem specimens_eq_ok_iff (list : List Specimen) : specimens list = .ok () ↔ ∀ p ∈ places list, p.Clear := by
  have same : (places list).findSome? fault? = none ↔ ∀ p ∈ places list, p.Clear := by
    simp only [List.findSome?_eq_none_iff, fault_eq_none_iff]
  rw [specimens_eq, ← same]
  cases (places list).findSome? fault? with
  | none => exact iff_of_true rfl rfl
  | some fault => exact iff_of_false nofun nofun

theorem specimens_eq_error_iff (list : List Specimen) (fault : Fault) :
    specimens list = .error fault ↔ ∃ before p after, places list = before ++ p :: after ∧
      (∀ q ∈ before, q.Clear) ∧ Offends p fault := by
  have same : (places list).findSome? fault? = some fault ↔ ∃ before p after,
      places list = before ++ p :: after ∧ (∀ q ∈ before, q.Clear) ∧ Offends p fault := by
    simp only [List.findSome?_eq_some_iff, fault_eq_none_iff, fault_eq_some_iff]
    exact ⟨fun ⟨before, p, after, parts, wrong, right⟩ => ⟨before, p, after, parts, right, wrong⟩,
      fun ⟨before, p, after, parts, right, wrong⟩ => ⟨before, p, after, parts, wrong, right⟩⟩
  rw [specimens_eq, ← same]
  cases (places list).findSome? fault? with
  | none => exact iff_of_false nofun nofun
  | some other => exact ⟨fun same => by cases same; rfl, fun same => by cases same; rfl⟩

theorem mem_placesFromAll {path : List String} {list : List Specimen} {p : Place} :
    p ∈ placesFromAll path 0 list ↔
      ∃ index n, list[index]? = some n ∧ p ∈ placesFrom (path ++ [describe n index]) n := by
  simp only [placesFromAll_eq_flatMap, List.mem_flatMap, List.mem_map, Prod.exists,
    List.mem_zipIdx_iff_getElem?, Place.tree]
  constructor
  · rintro ⟨_, ⟨n, index, given, rfl⟩, member⟩
    exact ⟨index, n, given, member⟩
  · rintro ⟨index, n, given, member⟩
    exact ⟨_, ⟨n, index, given, rfl⟩, member⟩

theorem mem_placesFrom_iff {path : List String} {n : Specimen} {p : Place} :
    p ∈ placesFrom path n ↔ p = ⟨path, n⟩ ∨ p ∈ placesFromAll path 0 n.children := by
  cases n with
  | element head children => rw [placesFrom, List.mem_cons]; rfl
  | _ => simp [placesFrom, placesFromAll, Specimen.children]

theorem holds_of_mem {list : List Specimen} {path : List String} {n : Specimen} {p : Place}
    (above : Holds list path n) (member : p ∈ placesFrom path n) : Holds list p.path p.node := by
  induction n using Specimen.induct generalizing path with
  | element head children ih =>
    rcases mem_placesFrom_iff.mp member with rfl | below
    · exact above
    · obtain ⟨index, c, given, inside⟩ := mem_placesFromAll.mp below
      exact ih c (List.mem_of_getElem? given) (.child above given) inside
  | _ =>
    rw [List.mem_singleton.mp member]
    exact above

theorem mem_placesFrom_child {path : List String} {top parent n : Specimen} {under : List String} {index : Nat}
    (member : (⟨under, parent⟩ : Place) ∈ placesFrom path top) (given : parent.children[index]? = some n) :
    (⟨under ++ [describe n index], n⟩ : Place) ∈ placesFrom path top := by
  induction top using Specimen.induct generalizing path with
  | element head children ih =>
    refine mem_placesFrom_iff.mpr (.inr (mem_placesFromAll.mpr ?_))
    rcases mem_placesFrom_iff.mp member with same | below
    · cases same
      exact ⟨index, n, given, mem_placesFrom_iff.mpr (.inl rfl)⟩
    · obtain ⟨place, c, old, inside⟩ := mem_placesFromAll.mp below
      exact ⟨place, c, old, ih c (List.mem_of_getElem? old) inside⟩
  | _ =>
    cases List.mem_singleton.mp member
    cases given

theorem mem_places_iff (list : List Specimen) (p : Place) :
    p ∈ places list ↔ Holds list p.path p.node := by
  obtain ⟨path, n⟩ := p
  unfold places
  rw [mem_placesFromAll]
  constructor
  · rintro ⟨index, n, given, member⟩
    exact holds_of_mem (.top given) member
  · dsimp only
    intro held
    induction held with
    | top given => exact ⟨_, _, given, mem_placesFrom_iff.mpr (.inl rfl)⟩
    | child _ given ih =>
      obtain ⟨place, top, old, inside⟩ := ih
      exact ⟨place, top, old, mem_placesFrom_child inside given⟩

-- A list is found right just when each node that can be reached from it is well formed, not too deep and
-- without capabilities that are none. Otherwise the fault is that of the first place in document order
-- that has one.
theorem specimens_first_fault (list : List Specimen) :
    (specimens list = .ok () ↔
      ∀ path s, Holds list path s → path.length ≤ maxDepth ∧ s.WellFormed ∧ s.foreign? = none) ∧
    (∀ p, p ∈ places list ↔ Holds list p.path p.node) ∧
    ∀ fault, specimens list = .error fault ↔ ∃ before p after, places list = before ++ p :: after ∧
      (∀ q ∈ before, q.Clear) ∧ Offends p fault := by
  refine ⟨?_, mem_places_iff list, specimens_eq_error_iff list⟩
  rw [specimens_eq_ok_iff]
  constructor
  · intro clear path s held
    obtain ⟨shallow, fine, known⟩ := clear ⟨path, s⟩ ((mem_places_iff list _).mpr held)
    exact ⟨shallow, fine, known⟩
  · intro clear p member
    obtain ⟨shallow, fine, known⟩ := clear p.path p.node ((mem_places_iff list p).mp member)
    exact ⟨shallow, fine, known⟩

def emptyBlock (tag : String) (limits : Limits) (children : List Specimen) : Specimen :=
  .element ⟨.text tag, .record [], .null, limits, .null⟩ children

def wordless : TextLeaf := ⟨.null, .null, .null, .null, .null⟩

def halfWordless : List Specimen :=
  [emptyBlock "view" .absent [.text { wordless with content := .text "x" }, .text wordless, .alien .null]]

theorem halfWordless_reported :
    specimens halfWordless =
      .error (.invalidNode (.text missingContent) (.text wordless) ["view[0]", "#text[1]"]) := by
  have clear : ∀ q ∈ (places halfWordless).take 2, q.Clear := by
    refine List.forall_mem_cons.mpr ⟨⟨by decide, ?_, rfl⟩, List.forall_mem_singleton.mpr ⟨by decide, ?_, rfl⟩⟩
    · exact ⟨⟨"view", by decide, rfl⟩, ⟨[], rfl⟩, nofun⟩
    · exact ⟨⟨"x", rfl⟩, .inl rfl⟩
  have wrong : ¬(Specimen.text wordless).WellFormed := by
    rintro ⟨⟨s, same⟩, _⟩
    cases same
  exact ((specimens_first_fault halfWordless).2.2 _).mpr ⟨(places halfWordless).take 2,
    ⟨["view[0]", "#text[1]"], .text wordless⟩, (places halfWordless).drop 3, rfl, clear,
    .invalid (by decide) wrong rfl⟩

-- A block with a text for capabilities before one without a tag: the second is the first that is not well
-- formed, but the check does not come to it.
def wornBlocks : List Specimen := [emptyBlock "view" (.given (.text "flex")) [], emptyBlock "" .absent []]

theorem wornBlocks_unread :
    Holds wornBlocks ["[1]"] (emptyBlock "" .absent []) ∧ ¬(emptyBlock "" .absent []).WellFormed ∧
      (emptyBlock "view" (.given (.text "flex")) []).WellFormed ∧
      specimens wornBlocks = .error (.missingAttribute "str" "is_void") := by
  have second : Holds wornBlocks [describe (emptyBlock "" .absent []) 1] (emptyBlock "" .absent []) :=
    .top rfl
  have fine : (emptyBlock "view" (.given (.text "flex")) []).WellFormed :=
    ⟨⟨"view", by decide, rfl⟩, ⟨[], rfl⟩, nofun⟩
  refine ⟨second, ?_, fine, ?_⟩
  · rintro ⟨⟨name, filled, tag⟩, _⟩
    cases tag
    exact filled rfl
  · have first : Offends ⟨["view[0]"], emptyBlock "view" (.given (.text "flex")) []⟩
        (.missingAttribute (Value.text "flex").typeName "is_void") :=
      .unreadable (by decide) fine rfl
    exact (specimens_eq_error_iff wornBlocks _).mpr ⟨[], _, _, rfl, nofun, first⟩

end Validate
end SemanticMarkup
