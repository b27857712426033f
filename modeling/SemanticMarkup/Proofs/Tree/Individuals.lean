import Mathlib.Data.List.Nodup
import SemanticMarkup.Proofs.Tree.Places

namespace SemanticMarkup

-- A tree whose nodes have names. A name is what tells a node from all others, also from those that
-- look the same.
inductive Individual (ι : Type) where
  | element (name : ι) (head : ElementHead) (children : List (Individual ι))
  | text (name : ι) (leaf : TextLeaf)

namespace Individual
variable {ι : Type}

def name : Individual ι → ι
  | element name _ _ => name
  | text name _ => name

def children : Individual ι → List (Individual ι)
  | element _ _ children => children
  | text _ _ => []

def withChildren : Individual ι → List (Individual ι) → Individual ι
  | element name head _, children => element name head children
  | text name leaf, _ => text name leaf

mutual

def names : Individual ι → List ι
  | element name _ children => name :: namesAll children
  | text name _ => [name]

def namesAll : List (Individual ι) → List ι
  | [] => []
  | child :: rest => child.names ++ namesAll rest

end

mutual

def plain : Individual ι → Node
  | element _ head children => .element head (plainAll children)
  | text _ leaf => .text leaf

def plainAll : List (Individual ι) → List Node
  | [] => []
  | child :: rest => child.plain :: plainAll rest

end

theorem namesAll_eq (kids : List (Individual ι)) : namesAll kids = kids.flatMap names := by
  induction kids with
  | nil => rfl
  | cons child rest ih => rw [namesAll, ih, List.flatMap_cons]

theorem plainAll_eq (kids : List (Individual ι)) : plainAll kids = kids.map plain := by
  induction kids with
  | nil => rfl
  | cons child rest ih => rw [plainAll, ih, List.map_cons]

theorem names_eq (n : Individual ι) : n.names = n.name :: n.children.flatMap names := by
  cases n with
  | element name head children => rw [names, namesAll_eq]; rfl
  | text => rfl

theorem children_plain (n : Individual ι) : n.plain.children = n.children.map plain := by
  cases n with
  | element name head children => exact plainAll_eq children
  | text => rfl

theorem plain_withChildren (n : Individual ι) (kids : List (Individual ι)) :
    (n.withChildren kids).plain = n.plain.withChildren (kids.map plain) := by
  cases n with
  | element name head children => exact congrArg (Node.element head) (plainAll_eq kids)
  | text => rfl

theorem name_withChildren (n : Individual ι) (kids : List (Individual ι)) :
    (n.withChildren kids).name = n.name := by
  cases n <;> rfl

end Individual

instance {ι : Type} : Branching (Individual ι) where
  children := Individual.children
  withChildren := Individual.withChildren
  size n := n.names.length
  smaller n := by
    have sizes : ∀ kids : List (Individual ι),
        (kids.map fun c => c.names.length).foldr (· + ·) 0 = (kids.flatMap Individual.names).length := by
      intro kids
      induction kids with
      | nil => rfl
      | cons child rest ih => rw [List.map_cons, List.foldr_cons, ih, List.flatMap_cons, List.length_append]
    rw [sizes, Individual.names_eq, List.length_cons]
    exact Nat.lt_succ_self _
  same n := by cases n <;> rfl

instance {ι : Type} : Reshaping (Individual ι) where
  children_withChildren n kids long := by
    cases n with
    | element => rfl
    | text => exact (List.eq_nil_of_length_eq_zero long).symm

namespace Individual
variable {ι : Type}
open Walk

-- What a node is beside the children themselves: its name, all that it has of its own, and the
-- number of its children.
def face (n : Individual ι) : ι × Node × Nat :=
  (n.name, n.plain.withChildren [], n.children.length)

theorem face_withChildren (n : Individual ι) (kids : List (Individual ι))
    (long : kids.length = n.children.length) : (n.withChildren kids).face = n.face := by
  cases n with
  | element =>
    change (_, _, kids.length) = (_, _, _)
    rw [long]
    rfl
  | text => rfl

theorem at?_plain (n : Individual ι) (path : Path) : n.plain.at? path = (at? n path).map plain := by
  induction path generalizing n with
  | nil => rfl
  | cons i path ih =>
    rw [Node.at?, at?, children_plain, List.getElem?_map]
    change _ = Option.map plain (n.children[i]?.bind _)
    cases n.children[i]? with
    | none => rfl
    | some child => exact ih child

theorem plain_putAt (replacement n : Individual ι) (path : Path) :
    (putAt replacement path n).plain = Node.modifyAt (fun _ => replacement.plain) path n.plain := by
  induction path generalizing n with
  | nil => rfl
  | cons i path ih =>
    have kids : (n.children.modify i (putAt replacement path)).map plain =
        (n.children.map plain).modify i (Node.modifyAt (fun _ => replacement.plain) path) := by
      refine List.ext_getElem? fun j => ?_
      rw [List.getElem?_map, List.getElem?_modify, List.getElem?_modify, List.getElem?_map]
      cases n.children[j]? with
      | none => rfl
      | some child =>
        by_cases here : i = j
        · simp [here, ih child]
        · simp [here]
    rw [Node.modifyAt, children_plain, ← kids]
    exact plain_withChildren n _

theorem within_plain {levels : Nat} {n : Individual ι} (inside : Within levels n) :
    Within levels n.plain := by
  induction levels generalizing n with
  | zero =>
    have none : n.children = [] := inside
    change n.plain.children = []
    rw [children_plain, none, List.map_nil]
  | succ levels ih =>
    intro c member
    change c ∈ n.plain.children at member
    rw [children_plain] at member
    obtain ⟨d, old, rfl⟩ := List.mem_map.mp member
    exact ih (inside d old)

theorem name_mem_names (n : Individual ι) : n.name ∈ n.names := by
  rw [names_eq]
  exact List.mem_cons_self

theorem mem_names_of_at? {n b : Individual ι} {path : Path} (stands : at? n path = some b) :
    b.name ∈ n.names := by
  induction path generalizing n with
  | nil =>
    cases stands
    exact name_mem_names b
  | cons i path ih =>
    obtain ⟨c, child, below⟩ := at?_cons_eq_some_iff.mp stands
    rw [names_eq]
    exact List.mem_cons_of_mem _
      (List.mem_flatMap.mpr ⟨c, List.mem_of_getElem? child, ih below⟩)

theorem exists_place_of_mem_names {n : Individual ι} {m : ι} (member : m ∈ n.names) :
    ∃ path b, at? n path = some b ∧ b.name = m := by
  induction n using Walk.induct with
  | node n ih =>
    rw [names_eq] at member
    rcases List.mem_cons.mp member with rfl | below
    · exact ⟨[], n, rfl, rfl⟩
    · obtain ⟨c, child, inside⟩ := List.mem_flatMap.mp below
      obtain ⟨path, b, stands, named⟩ := ih c child inside
      obtain ⟨i, given⟩ := List.getElem?_of_mem child
      exact ⟨i :: path, b, at?_cons_eq_some_iff.mpr ⟨c, given, stands⟩, named⟩

theorem index_unique {β γ : Type} {f : β → List γ} {list : List β} {i j : Nat} {b c : β} {x : γ}
    (distinct : (list.flatMap f).Nodup) (first : list[i]? = some b) (second : list[j]? = some c)
    (here : x ∈ f b) (there : x ∈ f c) : i = j := by
  obtain ⟨_, apart⟩ := List.nodup_flatMap.mp distinct
  obtain ⟨short, rfl⟩ := List.getElem?_eq_some_iff.mp first
  obtain ⟨shorter, rfl⟩ := List.getElem?_eq_some_iff.mp second
  rcases Nat.lt_trichotomy i j with less | same | more
  · exact absurd there (List.pairwise_iff_getElem.mp apart i j short shorter less here)
  · exact same
  · exact absurd here (List.pairwise_iff_getElem.mp apart j i shorter short more there)

theorem place_unique {n b c : Individual ι} {path place : Path} (distinct : n.names.Nodup)
    (stands : at? n path = some b) (also : at? n place = some c) (same : b.name = c.name) :
    path = place := by
  induction path generalizing n place with
  | nil =>
    cases stands
    cases place with
    | nil => rfl
    | cons j place =>
      obtain ⟨d, child, below⟩ := at?_cons_eq_some_iff.mp also
      rw [names_eq, List.nodup_cons] at distinct
      refine absurd (List.mem_flatMap.mpr ⟨d, List.mem_of_getElem? child, ?_⟩) distinct.1
      rw [same]
      exact mem_names_of_at? below
  | cons i path ih =>
    obtain ⟨d, child, below⟩ := at?_cons_eq_some_iff.mp stands
    rw [names_eq, List.nodup_cons] at distinct
    obtain ⟨outside, inside⟩ := distinct
    cases place with
    | nil =>
      cases also
      refine absurd (List.mem_flatMap.mpr ⟨d, List.mem_of_getElem? child, ?_⟩) outside
      rw [← same]
      exact mem_names_of_at? below
    | cons j place =>
      obtain ⟨e, other, beneath⟩ := at?_cons_eq_some_iff.mp also
      have shared := mem_names_of_at? below
      rw [same] at shared
      obtain rfl := index_unique inside child other shared (mem_names_of_at? beneath)
      rw [child] at other
      cases other
      have each := (List.nodup_flatMap.mp inside).1 d (List.mem_of_getElem? child)
      rw [ih each below beneath]

def Confined (root : Individual ι) (m : ι) (path : Path) : Prop :=
  ∀ place c, at? root place = some c → c.name = m → path <+: place

theorem confined_of_nodup {root b : Individual ι} {path : Path} (distinct : root.names.Nodup)
    (stands : at? root path = some b) : Confined root b.name path := by
  intro place c also named
  obtain rfl := place_unique distinct stands also named.symm
  exact List.prefix_refl path

-- The nodes on the way to a place are told by their names from all that is not below them.
def Marked (root : Individual ι) (path : Path) : Prop :=
  ∀ place b, place <+: path → at? root place = some b → Confined root b.name place

theorem beside_putAt {root replacement c : Individual ι} {path place : Path}
    (beside : ¬ path <+: place) (stands : at? (putAt replacement path root) place = some c) :
    ∃ d, at? root place = some d ∧ d.face = c.face := by
  have same := view_putAt face_withChildren root replacement beside
  rw [stands] at same
  obtain ⟨d, here, looks⟩ := Option.map_eq_some_iff.mp same.symm
  exact ⟨d, here, looks⟩

theorem nearBeside_putAt {root : Individual ι} {path : Path} (near : NearBeside root path)
    (replacement : Individual ι) : NearBeside (putAt replacement path root) path := by
  intro place c beside stands
  obtain ⟨d, here, _⟩ := beside_putAt beside stands
  exact near place d beside here

theorem marked_putAt {root target replacement : Individual ι} {path : Path}
    (distinct : root.names.Nodup) (fresh : replacement.name ∉ root.names)
    (stands : at? root path = some target) : Marked (putAt replacement path root) path := by
  intro place b upper here other c there named
  by_contra beside
  have apart : ¬ path <+: other := fun lower => beside (upper.trans lower)
  obtain ⟨d, old, looks⟩ := beside_putAt apart there
  have known : d.name = b.name := (congrArg Prod.fst looks).trans named
  by_cases whole : path <+: place
  · obtain rfl := upper.eq_of_length_le whole.length_le
    have top := at?_putAt_append stands ([] : Path) (b := replacement)
    rw [List.append_nil, here] at top
    cases top
    exact fresh (known ▸ mem_names_of_at? old)
  · obtain ⟨e, before, same⟩ := beside_putAt whole here
    have single := place_unique distinct before old ((congrArg Prod.fst same).trans known.symm)
    exact beside (single ▸ List.prefix_refl place)

-- A tree with another one at a place: there it has the other one, and all that is not below the place
-- has its name, its own content and the number of its children as before.
structure ExchangedAt (root result replacement : Individual ι) (path : Path) : Prop where
  inside : ∀ rest, at? result (path ++ rest) = at? replacement rest
  outside : ∀ place, ¬ path <+: place → (at? result place).map face = (at? root place).map face

end Individual
end SemanticMarkup
