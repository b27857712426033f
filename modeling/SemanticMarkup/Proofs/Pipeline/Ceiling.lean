import SemanticMarkup.Proofs.Pipeline.Outcome
import SemanticMarkup.Proofs.Validity.Passes

namespace SemanticMarkup
open Walk Passes

namespace Passes

theorem marked_not_done {item : Node} (proper : item.Proper) (isItem : isItem item = true)
    (marker : String) : (editWithin markListsIn 1 (marked marker item)).2 = false := by
  obtain ⟨leaf, rest, same, _⟩ := marked_eq marker item
  have plain : isList (marked marker item) = false := by
    rw [same, isList_withChildren, isList_of_isItem isItem]
  have left : markListsIn (marked marker item) = marked marker item := by simp [markListsIn, plain]
  rw [Bool.eq_false_iff, Ne, editWithin_done, left, same]
  intro done
  cases item with
  | element head children =>
    have first := done (.text leaf) List.mem_cons_self
    cases first
  | text _ => cases isItem
  | _ => exact proper.elim

theorem turned_done {levels : Nat} {d c : Node} (turns : Turns d c) (inside : Within levels d)
    (proper : Everywhere Node.Proper d)
    (below : ∀ n, Within levels n → Everywhere Node.Proper n →
      ((editWithin markListsIn (levels + 1) n).2 = true ↔ ¬ItemAt levels n)) :
    (editWithin markListsIn (levels + 1) c).2 = true ↔
      ¬((levels = 0 ∧ isItem d = true) ∨ ItemAt levels d) := by
  unfold Turns at turns
  cases item : isItem d with
  | false =>
    rw [item] at turns
    simp only [Bool.false_eq_true, if_false] at turns
    rw [turns, below d inside proper]
    simp
  | true =>
    rw [item] at turns
    obtain ⟨marker, rfl⟩ := turns
    cases levels with
    | zero =>
      -- The item is at the bottom and its marker one level below.
      rw [marked_not_done proper.here item marker]
      simp
    | succ levels =>
      rw [below _ (marked_within marker inside) (Node.lasting_proper.marked marker item proper),
        itemAt_marked item marker]
      simp

theorem markLists_done_iff {levels : Nat} {n : Node} (inside : Within levels n)
    (proper : Everywhere Node.Proper n) :
    (editWithin markListsIn (levels + 1) n).2 = true ↔ ¬ItemAt levels n := by
  induction levels generalizing n with
  | zero =>
    have none : n.children = [] := inside
    have still : (markListsIn n).children = [] := children_markListsIn none
    rw [editWithin_done]
    show (∀ c ∈ (markListsIn n).children, _) ↔ _
    rw [still]
    simp [ItemAt]
  | succ levels ih =>
    have deep : ∀ c ∈ n.children, Within levels c := inside
    have fine : ∀ c ∈ n.children, Everywhere Node.Proper c := proper.inside
    rw [editWithin_done, itemAt_succ]
    show (∀ c ∈ (markListsIn n).children, _) ↔ _
    cases list : isList n with
    | false =>
      have left : markListsIn n = n := by simp [markListsIn, list]
      rw [left]
      simp only [Bool.false_eq_true, false_and, false_or, not_exists, not_and]
      exact forall₂_congr fun c member => ih (deep c member) (fine c member)
    | true =>
      cases n with
      | element head children =>
        have turned : (markListsIn (.element head children)).children =
            markItems (Node.hasSourceTag (.element head children) Tag.orderedList) 0 children := by
          rw [markListsIn, if_pos list]
          rfl
        -- The walk goes on in what the children have turned into, not in the children themselves.
        rw [turned]
        refine (forall_markItems fun d member c turns =>
          turned_done turns (deep d member) (fine d member) fun _ => ih).trans ?_
        simp only [true_and, ← exists_or, ← and_or_left, not_exists, not_and, Node.children]
      | text _ => cases list
      | _ => exact proper.here.elim

end Passes

namespace Transformer
variable {ε σ : Type} {t : Transformer ε σ} {n : Node}

theorem converted_within (t : Transformer ε σ) {a : Ast} (top : a.head.kind = .root)
    (inside : Within maxDepth a) : Within maxDepth (t.converted a) := by
  have still : (a.mapHeads flagBlank).head.kind = .root := by
    cases a with
    | node h children =>
      have root : h.kind = .root := top
      simp [Ast.mapHeads, Ast.head, flagBlank, AstHead.isText, root]
  exact (nodesOf_ok still (nodesOf_flagged t inside)).2

theorem converted_proper (t : Transformer ε σ) (a : Ast) : Everywhere Node.Proper (t.converted a) :=
  root_proper t.options.styleMode _

theorem itemAt_merged (depth : Nat) (n : Node) :
    ItemAt depth (editAll Node.mergeChildren n).1 ↔ ItemAt depth n :=
  itemAt_mergeWithin (maxDepth + 1) depth n

theorem finished_of_within {edit : Node → Node}
    (keeps : ∀ levels n, Within levels n → Within levels (edit n))
    (sound : ∀ n, Everywhere Node.Proper n → Everywhere Node.Proper (edit n))
    (inside : Within maxDepth n) (proper : Everywhere Node.Proper n) :
    Walk.finished edit n = .ok (editAll edit n).1 ∧ Within maxDepth (editAll edit n).1 ∧
      Everywhere Node.Proper (editAll edit n).1 := by
  obtain ⟨done, deep⟩ := editWithin_of_within keeps inside (Nat.lt_succ_self maxDepth)
  exact ⟨Walk.finished_ok_iff.mpr ⟨done, rfl⟩, deep, Node.lasting_proper.edited sound proper⟩

theorem grown_error (source : String) (inside : Within maxDepth n)
    (proper : Everywhere Node.Proper n) (item : ItemAt maxDepth n) :
    t.grown source n = .error depthFault := by
  obtain ⟨merged, deep, fine⟩ :=
    finished_of_within Node.mergeChildren_within Node.lasting_proper.mergeChildren inside proper
  have stopped : (editAll markListsIn (editAll Node.mergeChildren n).1).2 ≠ true := by
    intro done
    exact (markLists_done_iff deep fine).mp done ((itemAt_merged maxDepth n).mpr item)
  have failed : Walk.finished markListsIn (editAll Node.mergeChildren n).1 = .error depthFault :=
    if_neg stopped
  unfold grown
  rw [merged]
  show (Walk.finished markListsIn (editAll Node.mergeChildren n).1 >>= _) = _
  rw [failed]
  rfl

theorem grown_ok (t : Transformer ε σ) (source : String) (inside : Within maxDepth n)
    (proper : Everywhere Node.Proper n) (none : ¬ItemAt maxDepth n) :
    ∃ root, t.grown source n = .ok root ∧ Within maxDepth root ∧ Everywhere Node.Proper root := by
  obtain ⟨merged, deep, fine⟩ :=
    finished_of_within Node.mergeChildren_within Node.lasting_proper.mergeChildren inside proper
  have done : (editAll markListsIn (editAll Node.mergeChildren n).1).2 = true := by
    refine (markLists_done_iff deep fine).mpr fun item => none ?_
    exact (itemAt_merged maxDepth n).mp item
  have marked := Walk.finished_ok_iff.mpr ⟨done, rfl⟩
  have listed : Within maxDepth (editAll markListsIn (editAll Node.mergeChildren n).1).1 :=
    within_of_done done
  have named := Node.lasting_proper.edited Node.lasting_proper.markListsIn fine
  -- From here on only what is known about each tree matters, not how it came about.
  generalize (editAll Node.mergeChildren n).1 = first at *
  generalize (editAll markListsIn first).1 = second at *
  obtain ⟨flat, lower, sound⟩ :=
    finished_of_within flattenIn_within Node.lasting_proper.flattenIn listed named
  generalize (editAll flattenIn second).1 = third at *
  obtain ⟨dressed, last, whole⟩ := finished_of_within
    (shallow_served t.options.removeAllStyle.isTrue t.options.removeAllClass.isTrue).within
    (served_proper t.options.removeAllStyle.isTrue t.options.removeAllClass.isTrue) lower sound
  refine ⟨_, ?_, last, whole⟩
  unfold grown
  rw [merged]
  show (Walk.finished markListsIn first >>= _) = _
  rw [marked]
  show (Walk.finished flattenIn second >>= _) = _
  rw [flat]
  show (Walk.finished _ third).mapError _ = _
  rw [dressed]
  rfl

theorem delivered_ok (t : Transformer ε σ) {root : Node} (inside : Within maxDepth root)
    (proper : Everywhere Node.Proper root) : t.delivered root = .ok (resultOf root) := by
  obtain ⟨things, counted⟩ := all_of_within inside
  unfold delivered checked
  rw [counted, check_ok proper inside]
  cases t.options.debug.isTrue <;> cases t.options.validate.isTrue <;> rfl

theorem complete_error (unchanged : t.plugins = builtin) {a : Ast} (top : a.head.kind = .root)
    (inside : Within maxDepth a) (item : ItemAt maxDepth (t.converted a)) (source : String)
    (shared : σ) :
    (t.complete.exec (t.start a source shared)).1 = .error depthFault := by
  rw [complete_of_within t unchanged inside,
    grown_error source (converted_within t top inside) (converted_proper t a) item]
  rfl

theorem complete_ok (unchanged : t.plugins = builtin) {a : Ast} (top : a.head.kind = .root)
    (inside : Within maxDepth a) (none : ¬ItemAt maxDepth (t.converted a)) (source : String)
    (shared : σ) : ∃ nodes, (t.complete.exec (t.start a source shared)).1 = .ok nodes := by
  obtain ⟨root, grown, deep, proper⟩ :=
    grown_ok t source (converted_within t top inside) (converted_proper t a) none
  refine ⟨resultOf root, ?_⟩
  rw [complete_of_within t unchanged inside, grown]
  exact delivered_ok t deep proper

-- Markup that is not too deep is transformed and passes the checks, unless an item of a list ends
-- up as deep as anything may be: its marker stands one level below.
theorem complete_outcome (t : Transformer ε σ) (unchanged : t.plugins = builtin) {a : Ast}
    (top : a.head.kind = .root) (inside : Within maxDepth a) (source : String) (shared : σ) :
    (ItemAt maxDepth (t.converted a) →
        (t.complete.exec (t.start a source shared)).1 = .error depthFault) ∧
      (¬ItemAt maxDepth (t.converted a) →
        ∃ nodes, (t.complete.exec (t.start a source shared)).1 = .ok nodes) :=
  ⟨fun item => complete_error unchanged top inside item source shared,
    fun none => complete_ok unchanged top inside none source shared⟩

def shortList : Ast :=
  .node .root [.node (.tag "ul" []) [.node (.tag "li" []) [.node (.text "x") []]]]

theorem shortList_marked :
    usual.plugins = builtin ∧ shortList.head.kind = .root ∧ Within maxDepth shortList ∧
      ¬ItemAt maxDepth (usual.converted shortList) ∧
      ∃ nodes, (usual.complete.exec (usual.start shortList "" ())).1 = .ok nodes := by
  have shallow : Within 3 shortList := by
    simp [shortList, Within, Branching.children, Ast.children]
  have deep : Within maxDepth shortList := shallow.mono (by decide)
  obtain ⟨list, item, leaf, same⟩ : ∃ list item leaf, usual.converted shortList =
      Node.root.withChildren [.element list [.element item [.text leaf]]] := ⟨_, _, _, rfl⟩
  have above : Within 3 (usual.converted shortList) := by
    rw [same]
    simp [Within, Branching.children, Node.children, Node.root, Node.withChildren]
  have none : ¬ItemAt maxDepth (usual.converted shortList) := by
    intro item
    have low : maxDepth ≤ 3 := itemAt_le above item
    exact absurd low (by decide)
  exact ⟨usual_plugins, rfl, deep, none, (complete_outcome usual usual_plugins rfl deep "" ()).2 none⟩

def contained : Nat → Ast → Ast
  | 0, a => a
  | containers + 1, a => .node (.tag "div" []) [contained containers a]

def emptyItem : Ast := .node (.tag "ul" []) [.node (.tag "li" []) []]

def deepItem : Ast := .node .root [contained 510 emptyItem]

theorem within_contained {levels : Nat} {a : Ast} (inside : Within levels a) (containers : Nat) :
    Within (levels + containers) (contained containers a) := by
  induction containers with
  | zero => exact inside
  | succ containers ih =>
    intro c member
    rw [show c = contained containers a from List.mem_singleton.mp member]
    exact ih

theorem itemAt_contained (mode : StyleMode) (containers : Nat) (i : Inherited) :
    ∃ n, becomes mode i ((contained containers emptyItem).mapHeads flagBlank) = [n] ∧
      ItemAt (containers + 1) n := by
  induction containers generalizing i with
  | zero =>
    refine ⟨_, rfl, ?_, _, List.mem_singleton_self _, ?_⟩
    · rfl
    · rfl
  | succ containers ih =>
    have sense : meaning (flagBlank (.tag "div" [])) = .element Tag.block := rfl
    obtain ⟨n, inner, deep⟩ := ih (i.within mode (flagBlank (.tag "div" [])).tagName Tag.block)
    refine ⟨.element (head mode (flagBlank (.tag "div" [])) Tag.block Tag.block.target) [n], ?_, n,
      List.mem_singleton_self n, deep⟩
    rw [contained, Ast.mapHeads, becomes_node, sense]
    simp only [Ast.mapHeadsAll, becomesAll, inner, List.append_nil]

theorem deepItem_within : Within maxDepth deepItem := by
  have shallow : Within 1 emptyItem := by
    simp [emptyItem, Within, Branching.children, Ast.children]
  have deep : Within (511 + 1) deepItem := by
    intro c member
    rw [show c = contained 510 emptyItem from List.mem_singleton.mp member]
    exact (within_contained shallow 510).mono (by decide)
  exact deep

theorem deepItem_itemAt : ItemAt maxDepth (usual.converted deepItem) := by
  obtain ⟨n, inner, low⟩ := itemAt_contained usual.options.styleMode 510 .nothing
  have item : ItemAt (510 + 2) (usual.converted deepItem) := by
    refine ⟨n, ?_, low⟩
    have group : meaning (flagBlank .root) = .group := rfl
    rw [converted, deepItem, Ast.mapHeads, becomes_node, group]
    simp only [Ast.mapHeadsAll, becomesAll, inner, List.append_nil]
    exact List.mem_singleton_self n
  exact item

theorem deepItem_refused :
    usual.plugins = builtin ∧ deepItem.head.kind = .root ∧ Within maxDepth deepItem ∧
      (usual.complete.exec (usual.start deepItem "" ())).1 = .error depthFault :=
  ⟨usual_plugins, rfl, deepItem_within,
    complete_error usual_plugins rfl deepItem_within deepItem_itemAt "" ()⟩

end Transformer
end SemanticMarkup
