import SemanticMarkup.Node.Merge
import SemanticMarkup.Proofs.Tree.Editing

namespace SemanticMarkup

def TextLeaf.chars (leaf : TextLeaf) : List Char := ((leaf.content.text?).getD "").toList

namespace Node
open Walk
variable {β : Type}

mutual

def collect (f : TextLeaf → List β) : Node → List β
  | .element _ children => collectAll f children
  | .barren _ _ => []
  | .text leaf => f leaf
  | .alien _ => []

def collectAll (f : TextLeaf → List β) : List Node → List β
  | [] => []
  | n :: rest => n.collect f ++ collectAll f rest

end

theorem collectAll_eq_flatMap (f : TextLeaf → List β) (nodes : List Node) :
    collectAll f nodes = nodes.flatMap (collect f) := by
  induction nodes with
  | nil => rfl
  | cons n rest ih => rw [collectAll, List.flatMap_cons, ih]

theorem collectAll_append (f : TextLeaf → List β) (front back : List Node) :
    collectAll f (front ++ back) = collectAll f front ++ collectAll f back := by
  simp only [collectAll_eq_flatMap, List.flatMap_append]

theorem collect_withChildren {f : TextLeaf → List β} {n : Node} {kids : List Node}
    (same : collectAll f kids = collectAll f n.children) :
    (n.withChildren kids).collect f = n.collect f := by
  cases n with
  | element head children => exact same
  | _ => rfl

theorem collect_editWithin {edit : Node → Node} {P : Node → Prop} {f : TextLeaf → List β}
    (kept : ∀ n, Everywhere P n → (edit n).collect f = n.collect f)
    (inside : ∀ n, Everywhere P n → ∀ c ∈ (edit n).children, Everywhere P c) (levels : Nat)
    {n : Node} (all : Everywhere P n) : (editWithin edit levels n).1.collect f = n.collect f := by
  induction levels generalizing n with
  | zero => rfl
  | succ levels ih =>
    rw [editWithin_succ, ← kept n all]
    refine collect_withChildren ?_
    have each : (editList (editWithin edit levels) (edit n).children).1.map (collect f) =
        (edit n).children.map (collect f) := editList_map fun c member => ih (inside n all c member)
    rw [collectAll_eq_flatMap, collectAll_eq_flatMap, List.flatMap_def, List.flatMap_def]
    exact congrArg List.flatten each

theorem mem_mergeFrom {run : Option OpenRun} {nodes : List Node} {n : Node}
    (member : n ∈ mergeFrom run nodes) : (∃ leaf, n = .text leaf) ∨ n ∈ nodes := by
  fun_induction mergeFrom run nodes with
  | case1 => cases member
  | case2 r => exact .inl ⟨_, List.mem_singleton.mp member⟩
  | case3 leaf rest ih => exact (ih member).imp_right (List.mem_cons_of_mem _)
  | case4 r leaf rest same ih => exact (ih member).imp_right (List.mem_cons_of_mem _)
  | case5 r leaf rest other ih =>
    rcases List.mem_cons.mp member with rfl | later
    · exact .inl ⟨_, rfl⟩
    · exact (ih later).imp_right (List.mem_cons_of_mem _)
  | case6 first rest _ ih =>
    rcases List.mem_cons.mp member with rfl | later
    · exact .inr List.mem_cons_self
    · exact (ih later).imp_right (List.mem_cons_of_mem _)
  | case7 r first rest _ ih =>
    rcases List.mem_cons.mp member with rfl | later
    · exact .inl ⟨_, rfl⟩
    · rcases List.mem_cons.mp later with rfl | last
      · exact .inr List.mem_cons_self
      · exact (ih last).imp_right (List.mem_cons_of_mem _)

theorem text_or_other (n : Node) : (∃ leaf, n = .text leaf) ∨ ∀ leaf, n ≠ .text leaf := by
  cases n with
  | text leaf => exact .inl ⟨leaf, rfl⟩
  | _ => exact .inr (by simp)

-- What an open run has to go before the nodes that come out next.
def opening (run : Option OpenRun) : List Node := run.toList.map fun r => .text r.leaf

theorem mergeFrom_of_other {n : Node} (other : ∀ leaf, n ≠ .text leaf) (run : Option OpenRun)
    (rest : List Node) : mergeFrom run (n :: rest) = opening run ++ n :: mergeFrom none rest := by
  cases n with
  | text leaf => exact absurd rfl (other leaf)
  | _ => cases run <;> rfl

theorem mem_mergeFrom_of_other {n : Node} (other : ∀ leaf, n ≠ .text leaf) (run : Option OpenRun)
    {nodes : List Node} (member : n ∈ nodes) : n ∈ mergeFrom run nodes := by
  induction nodes generalizing run with
  | nil => cases member
  | cons first rest ih =>
    rcases first.text_or_other with ⟨leaf, rfl⟩ | apart
    · rcases List.mem_cons.mp member with rfl | later
      · exact absurd rfl (other leaf)
      · cases run with
        | none =>
          rw [mergeFrom]
          exact ih _ later
        | some r =>
          rw [mergeFrom]
          split
          · exact ih _ later
          · exact List.mem_cons_of_mem _ (ih _ later)
    · rw [mergeFrom_of_other apart]
      rcases List.mem_cons.mp member with rfl | later
      · simp
      · simp [ih none later]

theorem everywhere_merged {P : Node → Prop} (texts : ∀ leaf, P (.text leaf)) {nodes : List Node}
    (all : ∀ c ∈ nodes, Everywhere P c) : ∀ c ∈ merged nodes, Everywhere P c := by
  intro c member
  rcases mem_mergeFrom member with ⟨leaf, rfl⟩ | old
  · exact .intro (texts leaf) (by simp [Branching.children, children])
  · exact all c old

theorem exists_merged {P : Node → Prop} (texts : ∀ leaf, ¬P (.text leaf)) {nodes : List Node} :
    (∃ c ∈ merged nodes, P c) ↔ ∃ c ∈ nodes, P c := by
  constructor
  · rintro ⟨c, member, holds⟩
    rcases mem_mergeFrom member with ⟨leaf, rfl⟩ | old
    · exact absurd holds (texts leaf)
    · exact ⟨c, old, holds⟩
  · rintro ⟨c, member, holds⟩
    have other : ∀ leaf, c ≠ .text leaf := by
      rintro leaf rfl
      exact texts leaf holds
    exact ⟨c, mem_mergeFrom_of_other other none member, holds⟩

theorem merged_within {levels : Nat} {nodes : List Node} (inside : ∀ n ∈ nodes, Within levels n) :
    ∀ n ∈ merged nodes, Within levels n := by
  intro n member
  rcases mem_mergeFrom member with ⟨leaf, rfl⟩ | old
  · exact Within.of_childless rfl levels
  · exact inside n old

def mergeChildren (n : Node) : Node := n.withChildren (merged n.children)

theorem mergeChildren_within (levels : Nat) (n : Node) (inside : Within levels n) :
    Within levels n.mergeChildren := by
  cases n with
  | element head children =>
    cases levels with
    | zero =>
      have none : children = [] := inside
      subst none
      exact inside
    | succ levels => exact merged_within inside
  | _ => exact inside

theorem mergeAll_done {root : Node} (inside : Within maxDepth root) :
    (mergeAll root).2 = true ∧ Within maxDepth (mergeAll root).1 :=
  editWithin_of_within mergeChildren_within inside (Nat.lt_succ_self maxDepth)

section Joining
variable {Q : TextLeaf → Prop} {f : TextLeaf → List β}

theorem mergeFrom_texts
    (closed : ∀ (r : OpenRun) leaf, Q r.leaf → Q leaf → r.leaf.sameMarks leaf = true →
      Q (r.join leaf).leaf)
    {run : Option OpenRun} {nodes : List Node} (begun : ∀ r ∈ run, Q r.leaf)
    (given : ∀ leaf, .text leaf ∈ nodes → Q leaf) :
    ∀ leaf, .text leaf ∈ mergeFrom run nodes → Q leaf := by
  fun_induction mergeFrom run nodes with
  | case1 => simp
  | case2 r => simpa using begun r rfl
  | case3 leaf rest ih =>
    exact ih (by simpa [OpenRun.start] using given leaf (by simp))
      fun l member => given l (by simp [member])
  | case4 r leaf rest same ih =>
    have joined := closed r leaf (begun r rfl) (given leaf (by simp)) same
    exact ih (by simpa using joined) fun l member => given l (by simp [member])
  | case5 r leaf rest other ih =>
    have others := ih (by simpa [OpenRun.start] using given leaf (by simp))
      fun l member => given l (by simp [member])
    intro l member
    rcases List.mem_cons.mp member with first | later
    · cases first
      exact begun r rfl
    · exact others l later
  | case6 n rest _ ih =>
    have others := ih (by simp) fun l member => given l (by simp [member])
    intro l member
    rcases List.mem_cons.mp member with first | later
    · exact given l (by simp [first])
    · exact others l later
  | case7 r n rest _ ih =>
    have others := ih (by simp) fun l member => given l (by simp [member])
    intro l member
    rcases List.mem_cons.mp member with first | later
    · cases first
      exact begun r rfl
    · rcases List.mem_cons.mp later with second | last
      · exact given l (by simp [second])
      · exact others l last

theorem collectAll_mergeFrom
    (closed : ∀ (r : OpenRun) leaf, Q r.leaf → Q leaf → r.leaf.sameMarks leaf = true →
      Q (r.join leaf).leaf)
    (parts : ∀ (r : OpenRun) leaf, Q r.leaf → Q leaf → r.leaf.sameMarks leaf = true →
      f (r.join leaf).leaf = f r.leaf ++ f leaf)
    {run : Option OpenRun} {nodes : List Node} (begun : ∀ r ∈ run, Q r.leaf)
    (given : ∀ leaf, .text leaf ∈ nodes → Q leaf) :
    collectAll f (mergeFrom run nodes) =
      collectAll f (run.toList.map fun r => .text r.leaf) ++ collectAll f nodes := by
  fun_induction mergeFrom run nodes with
  | case1 => rfl
  | case2 r => simp [collectAll]
  | case3 leaf rest ih =>
    have others := ih (by simpa [OpenRun.start] using given leaf (by simp))
      fun l member => given l (by simp [member])
    rw [others]
    simp [collectAll, OpenRun.start]
  | case4 r leaf rest same ih =>
    have old := begun r rfl
    have new := given leaf (by simp)
    have others := ih (by simpa using closed r leaf old new same)
      fun l member => given l (by simp [member])
    rw [others]
    simp [collectAll, collect, parts r leaf old new same]
  | case5 r leaf rest other ih =>
    have others := ih (by simpa [OpenRun.start] using given leaf (by simp))
      fun l member => given l (by simp [member])
    rw [collectAll, others]
    simp [collectAll, OpenRun.start]
  | case6 n rest _ ih =>
    rw [collectAll, ih (by simp) fun l member => given l (by simp [member])]
    simp [collectAll]
  | case7 r n rest _ ih =>
    rw [collectAll, collectAll, ih (by simp) fun l member => given l (by simp [member])]
    simp [collectAll]

end Joining

end Node
end SemanticMarkup
