import SemanticMarkup.Proofs.Conversion.Breaks
import SemanticMarkup.Proofs.Tree.Depth

namespace SemanticMarkup

namespace Ast

inductive Lies : Ast → List AstHead → Ast → Prop where
  | top (a : Ast) : Lies a [] a
  | under {h : AstHead} {children : List Ast} {c b : Ast} {above : List AstHead}
    (member : c ∈ children) (lies : Lies c above b) : Lies (.node h children) (h :: above) b

end Ast

namespace Passes
open Walk Ast
variable {κ σ : Type}

-- Conversion that begins at a depth gets down to a node that is too deep.
def Sinks (depth : Nat) (a : Ast) : Prop :=
  ∃ above b, a.Lies above b ∧ maxDepth < depth + above.length ∧ ∀ h ∈ above, h.isOpen = true

theorem sinks_node {depth : Nat} (le : depth ≤ maxDepth) (h : AstHead) (children : List Ast) :
    Sinks depth (.node h children) ↔ h.isOpen = true ∧ ∃ c ∈ children, Sinks (depth + 1) c := by
  constructor
  · rintro ⟨above, b, lies, deep, opens⟩
    cases lies with
    | top => exact absurd deep (by simpa using le)
    | @under _ _ c _ above member lies =>
      obtain ⟨first, others⟩ := List.forall_mem_cons.mp opens
      refine ⟨first, c, member, above, b, lies, ?_, others⟩
      rw [List.length_cons] at deep
      omega
  · rintro ⟨first, c, member, above, b, lies, deep, others⟩
    refine ⟨h :: above, b, .under member lies, ?_, List.forall_mem_cons.mpr ⟨first, others⟩⟩
    rw [List.length_cons]
    omega

theorem convertAll_fails_iff {mode : StyleMode} {i : Inherited} {depth : Nat} {trees : List Ast} :
    (∃ f, convertAll mode i depth trees = .error f) ↔
      ∃ c ∈ trees, ∃ f, convert mode i depth c = .error f := by
  constructor
  · rintro ⟨f, failed⟩
    obtain ⟨c, member, wrong⟩ := convertAll_error failed
    exact ⟨c, member, f, wrong⟩
  · rintro ⟨c, member, f, wrong⟩
    induction trees with
    | nil => cases member
    | cons first rest ih =>
      rw [convertAll]
      cases converted : convert mode i depth first with
      | error g => exact ⟨g, rfl⟩
      | ok nodes =>
        have later : c ∈ rest := by
          rcases List.mem_cons.mp member with rfl | later
          · rw [wrong] at converted
            cases converted
          · exact later
        obtain ⟨g, failed⟩ := ih later
        rw [failed]
        exact ⟨g, rfl⟩

theorem fails_map_iff {ε α β : Type} {result : Except ε α} {f : α → β} :
    (∃ e, result.map f = .error e) ↔ ∃ e, result = .error e := by
  cases result <;> simp [Except.map]

theorem convert_node_fails_iff (mode : StyleMode) (i : Inherited) {depth : Nat} (le : depth ≤ maxDepth)
    (h : AstHead) (children : List Ast) :
    (∃ f, convert mode i depth (.node h children) = .error f) ↔
      h.isOpen = true ∧ ∃ f, convertAll mode (i.through mode h) (depth + 1) children = .error f := by
  rw [convert_node mode i le, ← meaning_isOpen h, Inherited.through]
  cases meaning h with
  | group => simp [Meaning.isOpen]
  | formatting mark m => simp [Meaning.isOpen, fails_map_iff]
  | element m => simp [Meaning.isOpen, fails_map_iff]
  | _ => simp [Meaning.isOpen]

theorem convert_fails_iff (mode : StyleMode) (a : Ast) (i : Inherited) (depth : Nat) :
    (∃ f, convert mode i depth a = .error f) ↔ Sinks depth a := by
  induction a using Ast.induct generalizing i depth with
  | node h children ih =>
    by_cases le : depth ≤ maxDepth
    · rw [convert_node_fails_iff mode i le, sinks_node le, convertAll_fails_iff]
      exact and_congr_right fun _ =>
        exists_congr fun c => and_congr_right fun member => ih c member _ (depth + 1)
    · refine iff_of_true ?_ ⟨[], _, .top _, by simpa using le, by simp⟩
      rw [convert, if_pos (by omega)]
      exact ⟨_, rfl⟩

theorem within_becomesAll {mode : StyleMode} {i : Inherited} {levels : Nat} {h : AstHead} {children : List Ast}
    (inside : Within levels (Ast.node h children))
    (each : ∀ c ∈ children, ∀ fewer, Within fewer c → ∀ n ∈ becomes mode i c, Within fewer n)
    (head : ElementHead) : Within levels (Node.element head (becomesAll mode i children)) := by
  cases levels with
  | zero =>
    have none : children = [] := inside
    subst none
    exact .of_childless (by rw [becomesAll]; rfl) 0
  | succ levels =>
    intro n member
    obtain ⟨c, among, old⟩ := mem_becomesAll.mp member
    exact each c among levels (inside c among) n old

theorem becomes_within (mode : StyleMode) (a : Ast) (i : Inherited) {levels : Nat}
    (inside : Within levels a) : ∀ n ∈ becomes mode i a, Within levels n := by
  induction a using Ast.induct generalizing i levels with
  | node h children ih =>
    have around : ∀ j head, Within levels (Node.element head (becomesAll mode j children)) :=
      fun j => within_becomesAll inside fun c member fewer deep => ih c member j deep
    have below : ∀ {head kids}, Within levels (Node.element head kids) → ∀ n ∈ kids, Within levels n := by
      intro head kids deep n member
      obtain ⟨fewer, rfl, lower⟩ := deep.child member
      exact lower.succ
    have leaf : ∀ n : Node, n.children = [] → Within levels n :=
      fun n none => .of_childless none levels
    rw [becomes_node]
    cases meaning h with
    | nothing => simp
    | words data => simpa using leaf _ rfl
    | lineBreak => simpa using leaf _ rfl
    | void m => simpa using leaf _ rfl
    | group => exact below (around i (head mode h Tag.block ""))
    | element m => simpa using around _ _
    | formatting mark m =>
      -- A wrapper adds a level, but only where the tag took one away.
      have merged : Within levels (Node.element (head mode h m "text")
          (Node.merged (becomesAll mode (i.withMark mark) children))) :=
        Node.mergeChildren_within levels _ (around (i.withMark mark) _)
      dsimp only
      rcases formatted_cases mode h m (becomesAll mode (i.withMark mark) children) with plain | wrapped
      · rw [plain]
        exact below merged
      · rw [wrapped]
        simpa using merged

theorem becomes_lower {mode : StyleMode} {a : Ast} {i : Inherited} (top : a.head.kind = .root) :
    ∀ n ∈ becomes mode i a, height n < height a := by
  obtain ⟨h, children⟩ := a
  intro n member
  have sense : meaning h = .group := by rw [meaning, show h.kind = .root from top]
  rw [becomes_node, sense] at member
  obtain ⟨c, among, old⟩ := mem_becomesAll.mp member
  have low := height_le_iff.mpr (becomes_within mode c i (height_le_iff.mp (Nat.le_refl _)) n old)
  exact Nat.lt_of_le_of_lt low (height_lt_of_mem (a := Ast.node h children) among)

theorem structured_tooDeep {ctx after : Context κ σ} {limit source : Value} {phase : String}
    {cause : Option Fault} (ran : (structured : Action κ σ Unit).exec ctx =
      (.error (.tooDeep limit phase source cause), after)) : after = ctx ∧ source = ctx.source := by
  rcases structured_cases ran with ⟨_, _, same, _⟩ | ⟨mode, ⟨_, _, same, _⟩ | ⟨f, converted, same, kept⟩⟩
  · cases same
  · cases same
  · rw [convert_error mode ctx.ast .nothing 0 converted] at same
    cases same
    exact ⟨kept, rfl⟩

-- Conversion fails just when it comes to a node that is too deep. What it gives is no higher than the
-- markup, and lower below a root. A pass that fails so leaves everything as it was and tells the source.
theorem convert_nesting (mode : StyleMode) (a : Ast) (i : Inherited) (depth : Nat) :
    (∀ f, convert mode i depth a = .error f ↔
      f = .tooDeep depthLimit "structure" .null none ∧ Sinks depth a) ∧
    (∀ nodes, convert mode i depth a = .ok nodes → ∀ n ∈ nodes,
      height n ≤ height a ∧ (a.head.kind = .root → height n < height a)) ∧
    ∀ (ctx after : Context κ σ) (limit source : Value) (phase : String) (cause : Option Fault),
      (structured : Action κ σ Unit).exec ctx = (.error (.tooDeep limit phase source cause), after) →
        after = ctx ∧ source = ctx.source := by
  refine ⟨fun f => ⟨fun failed => ?_, ?_⟩, fun nodes converted => ?_, fun _ _ _ _ _ _ ran => structured_tooDeep ran⟩
  · exact ⟨convert_error mode a i depth failed, (convert_fails_iff mode a i depth).mp ⟨f, failed⟩⟩
  · rintro ⟨rfl, sinks⟩
    obtain ⟨g, failed⟩ := (convert_fails_iff mode a i depth).mpr sinks
    rw [failed, convert_error mode a i depth failed]
  · obtain ⟨rfl, _⟩ := convert_ok mode a i depth converted
    intro n member
    exact ⟨height_le_iff.mpr (becomes_within mode a i (height_le_iff.mp (Nat.le_refl _)) n member),
      fun top => becomes_lower top n member⟩

def tower : Nat → Ast
  | 0 => .node (.text "x") []
  | levels + 1 => .node (.tag "div" []) [tower levels]

theorem tower_sinks {levels : Nat} (deep : maxDepth < levels) : Sinks 0 (tower levels) := by
  have lies : ∀ levels, (tower levels).Lies (List.replicate levels (.tag "div" [])) (tower 0) := by
    intro levels
    induction levels with
    | zero => exact .top _
    | succ levels ih => exact .under (List.mem_singleton.mpr rfl) ih
  refine ⟨_, _, lies levels, by simpa using deep, fun h member => ?_⟩
  rw [List.eq_of_mem_replicate member]
  decide

theorem tower_nested :
    convert .inline .nothing 0 (tower 513) = .error (.tooDeep depthLimit "structure" .null none) ∧
    (∃ nodes, convert .inline .nothing 0 (.node .root [tower 2]) = .ok nodes ∧ nodes.length = 1 ∧
      ∀ n ∈ nodes, height n < height (Ast.node .root [tower 2])) ∧
    ∃ limit source phase cause after, (structured : Action Empty Unit Unit).exec (begun (tower 513)) =
      (.error (.tooDeep limit phase source cause), after) ∧ after.root = .root ∧ source = .null := by
  have deep := ((@convert_nesting Empty Unit .inline (tower 513) .nothing 0).1 _).mpr
    ⟨rfl, tower_sinks (by decide)⟩
  have ran := @exec_structured Empty Unit (begun (tower 513)) .inline rfl rfl
  rw [show nodesOf .inline (begun (tower 513)).ast = _ from deep] at ran
  obtain ⟨same, told⟩ :=
    (@convert_nesting Empty Unit .inline (tower 513) .nothing 0).2.2 _ _ _ _ _ _ ran
  refine ⟨deep, ⟨_, rfl, rfl, fun n member => ?_⟩, _, _, _, _, _, ran, by rw [same]; rfl, told⟩
  exact ((@convert_nesting Empty Unit .inline (.node .root [tower 2]) .nothing 0).2.1 _ rfl n member).2 rfl

end Passes
end SemanticMarkup
