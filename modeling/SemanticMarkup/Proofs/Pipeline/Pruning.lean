import SemanticMarkup.Proofs.Pipeline.Ceiling

namespace SemanticMarkup
open Walk Passes

def AstHead.holdsNothing (h : AstHead) : Bool :=
  h.isTag && (Tag.mapping? h.tagName).any fun m => m.isVoid || m.isLineBreak

namespace Ast

-- Dropped with all that is inside: scripts, styles and other nodes that are no text and no tag,
-- tags without a mapping, and blank texts.
def isDropped (a : Ast) : Bool :=
  match a.head.kind with
  | .root => false
  | .text => Text.isAllBlank a.head.dataText
  | .tag => (Tag.mapping? a.head.tagName).isNone
  | _ => true

mutual

def pruned : Ast → Ast
  | .node h children => .node h (if h.holdsNothing then [] else prunedAll children)

def prunedAll : List Ast → List Ast
  | [] => []
  | a :: rest => if a.isDropped then prunedAll rest else a.pruned :: prunedAll rest

end

theorem mem_prunedAll {trees : List Ast} {c : Ast} (member : c ∈ prunedAll trees) :
    ∃ d ∈ trees, c = d.pruned := by
  induction trees with
  | nil =>
    rw [prunedAll] at member
    cases member
  | cons a rest ih =>
    rw [prunedAll] at member
    split at member
    · obtain ⟨d, old, same⟩ := ih member
      exact ⟨d, by simp [old], same⟩
    · rcases List.mem_cons.mp member with rfl | later
      · exact ⟨a, by simp, rfl⟩
      · obtain ⟨d, old, same⟩ := ih later
        exact ⟨d, by simp [old], same⟩

theorem within_pruned {levels : Nat} {a : Ast} (inside : Within levels a) :
    Within levels a.pruned := by
  induction levels generalizing a with
  | zero =>
    cases a with
    | node h children =>
      have none : children = [] := inside
      subst none
      show (if h.holdsNothing then [] else prunedAll []) = []
      split
      · rfl
      · rw [prunedAll]
  | succ levels ih =>
    cases a with
    | node h children =>
      intro c member
      have among : c ∈ (if h.holdsNothing then [] else prunedAll children) := by
        rwa [pruned] at member
      split at among
      · cases among
      · obtain ⟨d, old, rfl⟩ := mem_prunedAll among
        exact ih (inside d old)

theorem isDropped_pruned (a : Ast) : a.pruned.isDropped = a.isDropped := by
  cases a with
  | node h children =>
    rw [pruned]
    rfl

theorem prunedAll_prunedAll {trees : List Ast} (each : ∀ c ∈ trees, c.pruned.pruned = c.pruned) :
    prunedAll (prunedAll trees) = prunedAll trees := by
  induction trees with
  | nil => rw [prunedAll, prunedAll]
  | cons a rest ih =>
    have others := ih fun c member => each c (by simp [member])
    rw [prunedAll]
    split
    · exact others
    · rename_i kept
      rw [prunedAll, isDropped_pruned, if_neg kept, each a (by simp), others]

theorem pruned_pruned (a : Ast) : a.pruned.pruned = a.pruned := by
  induction a using Ast.induct with
  | node h children ih =>
    rw [pruned, pruned]
    split
    · rfl
    · rw [prunedAll_prunedAll ih]

end Ast

namespace Passes
open Ast

theorem isOpen_flagged (h : AstHead) : (meaning (flagBlank h)).isOpen = h.isOpen := by
  rw [meaning_isOpen]
  unfold flagBlank
  split <;> rfl

theorem holdsNothing_of_isOpen {h : AstHead} (opens : h.isOpen = true) : h.holdsNothing = false := by
  unfold AstHead.isOpen at opens
  unfold AstHead.holdsNothing AstHead.isTag
  cases kind : h.kind with
  | tag =>
    simp only [kind] at opens ⊢
    cases mapped : Tag.mapping? h.tagName with
    | none => rfl
    | some m =>
      rw [mapped] at opens
      simp only [Option.any_some, Bool.and_eq_true, Bool.not_eq_true'] at opens
      simp [opens.1, opens.2]
  | _ => rfl

theorem meaning_flagged {h : AstHead} (text : h.isText = true)
    (blank : Text.isAllBlank h.dataText = true) : meaning (flagBlank h) = .nothing := by
  have flagged : ({ h with blank := Text.isAllBlank h.dataText } : AstHead).isText = true := text
  rw [flagBlank, if_pos text, meaning_of_text flagged]
  simp [blank]

theorem becomes_dropped (mode : StyleMode) (i : Inherited) {a : Ast} (dropped : a.isDropped = true) :
    becomes mode i (a.mapHeads flagBlank) = [] := by
  cases a with
  | node h children =>
    have sense : meaning (flagBlank h) = .nothing := by
      unfold isDropped Ast.head at dropped
      cases kind : h.kind with
      | root =>
        simp only [kind] at dropped
        cases dropped
      | text =>
        simp only [kind] at dropped
        exact meaning_flagged (by simp [AstHead.isText, kind]) dropped
      | tag =>
        simp only [kind] at dropped
        have unmapped : Tag.mapping? h.tagName = none := by simpa using dropped
        simp [flagBlank, AstHead.isText, meaning, kind, Meaning.ofTag, unmapped]
      | _ => simp [flagBlank, AstHead.isText, meaning, kind]
    rw [mapHeads, becomes_node, sense]

theorem becomesAll_prunedAll (mode : StyleMode) (i : Inherited) {trees : List Ast}
    (each : ∀ c ∈ trees,
      becomes mode i (c.pruned.mapHeads flagBlank) = becomes mode i (c.mapHeads flagBlank)) :
    becomesAll mode i (mapHeadsAll flagBlank (prunedAll trees)) =
      becomesAll mode i (mapHeadsAll flagBlank trees) := by
  induction trees with
  | nil => rw [prunedAll]
  | cons a rest ih =>
    have others := ih fun c member => each c (by simp [member])
    rw [prunedAll, mapHeadsAll, becomesAll]
    split
    · rename_i dropped
      rw [becomes_dropped mode i dropped, List.nil_append, others]
    · rw [mapHeadsAll, becomesAll, each a (by simp), others]

theorem becomes_pruned (mode : StyleMode) (a : Ast) (i : Inherited) :
    becomes mode i (a.pruned.mapHeads flagBlank) = becomes mode i (a.mapHeads flagBlank) := by
  induction a using Ast.induct generalizing i with
  | node h children ih =>
    -- What becomes of the children is asked only where the head lets conversion in.
    have opens := isOpen_flagged h
    have all : h.isOpen = true → ∀ j : Inherited,
        becomesAll mode j (mapHeadsAll flagBlank (if h.holdsNothing then [] else prunedAll children)) =
          becomesAll mode j (mapHeadsAll flagBlank children) := by
      intro holds j
      rw [if_neg (by simp [holdsNothing_of_isOpen holds])]
      exact becomesAll_prunedAll mode j fun c member => ih c member j
    rw [pruned, mapHeads, mapHeads, becomes_node, becomes_node]
    cases sense : meaning (flagBlank h) with
    | group =>
      rw [sense] at opens
      exact all opens.symm i
    | formatting mark m =>
      rw [sense] at opens
      simp only [all opens.symm]
    | element m =>
      rw [sense] at opens
      simp only [all opens.symm]
    | _ => rfl

end Passes

namespace Transformer
variable {ε σ : Type}

theorem converted_pruned (t : Transformer ε σ) (a : Ast) : t.converted a.pruned = t.converted a := by
  unfold converted
  rw [becomes_pruned]

theorem grown_elsewhere {t : Transformer ε σ} {source : String} (elsewhere : String) {n m : Node}
    (grown : t.grown source n = .ok m) : t.grown elsewhere n = .ok m := by
  obtain ⟨first, merged, marking⟩ := ok_of_bind grown
  obtain ⟨second, marked, flattening⟩ := ok_of_bind marking
  obtain ⟨third, flat, serving⟩ := ok_of_bind flattening
  have dressed := ok_of_mapError serving
  unfold Transformer.grown
  simp only [merged, marked, flat, dressed, bind, Except.bind, Except.mapError]

-- Markup that differs in nothing but what is dropped has the same result, and so has the markup
-- without it. Where the nodes come from another source they are the same all the more.
theorem complete_pruned (t : Transformer ε σ) (unchanged : t.plugins = builtin) {a : Ast}
    (inside : Within maxDepth a) (source : String) (shared : σ) :
    (t.complete.exec (t.start a.pruned source shared)).1 =
        (t.complete.exec (t.start a source shared)).1 ∧
      ∀ b : Ast, Within maxDepth b → b.pruned = a.pruned → ∀ elsewhere others nodes,
        (t.complete.exec (t.start a source shared)).1 = .ok nodes →
          (t.complete.exec (t.start b elsewhere others)).1 = .ok nodes := by
  have alike : ∀ b : Ast, b.pruned = a.pruned → t.converted b = t.converted a := by
    intro b same
    rw [← converted_pruned t b, same, converted_pruned]
  constructor
  · have deep := Ast.within_pruned inside
    rw [complete_of_within t unchanged deep, complete_of_within t unchanged inside,
      alike a.pruned a.pruned_pruned]
  · intro b deep same elsewhere others nodes fine
    rw [complete_of_within t unchanged inside] at fine
    obtain ⟨root, grown, delivered⟩ := ok_of_bind fine
    rw [complete_of_within t unchanged deep, alike b same, grown_elsewhere elsewhere grown]
    exact delivered

def scripted : Ast :=
  .node .root [
    .node (.tag "script" []) [.node (.text "x") []],
    .node (.tag "p" []) [.node (.text "y") [], .node (.text " ") []]]

def unscripted : Ast := .node .root [.node (.tag "p" []) [.node (.text "y") []]]

theorem scripted_unheard :
    usual.plugins = builtin ∧ Within maxDepth scripted ∧ scripted.pruned = unscripted ∧
      (usual.complete.exec (usual.start scripted.pruned "" ())).1 =
        (usual.complete.exec (usual.start scripted "" ())).1 ∧
      ∃ nodes, (usual.complete.exec (usual.start scripted "" ())).1 = .ok nodes ∧
        (usual.complete.exec (usual.start unscripted "y" ())).1 = .ok nodes := by
  have shallow : Within 2 scripted ∧ Within 2 unscripted := by
    simp [scripted, unscripted, Within, Branching.children, Ast.children]
  have deep : Within maxDepth scripted := shallow.1.mono (by decide)
  have short : Within maxDepth unscripted := shallow.2.mono (by decide)
  obtain ⟨paragraph, leaf, tree⟩ : ∃ paragraph leaf, usual.converted scripted =
      Node.root.withChildren [.element paragraph [.text leaf]] := ⟨_, _, rfl⟩
  have none : ¬ItemAt maxDepth (usual.converted scripted) := by
    intro item
    have above : Within 2 (usual.converted scripted) := by
      rw [tree]
      simp [Within, Branching.children, Node.children, Node.root, Node.withChildren]
    have low : maxDepth ≤ 2 := itemAt_le above item
    exact absurd low (by decide)
  obtain ⟨nodes, fine⟩ := complete_ok usual_plugins rfl deep none "" ()
  obtain ⟨same, elsewhere⟩ := complete_pruned usual usual_plugins deep "" ()
  exact ⟨usual_plugins, deep, rfl, same, nodes, fine, elsewhere unscripted short rfl "y" () nodes fine⟩

end Transformer
end SemanticMarkup
