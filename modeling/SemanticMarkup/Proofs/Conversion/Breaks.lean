import SemanticMarkup.Proofs.Conversion.Conservation
import SemanticMarkup.Proofs.Merge.Breaks
import SemanticMarkup.Proofs.Pipeline.Actions

namespace SemanticMarkup
open Walk

def AstHead.isLineBreak (h : AstHead) : Bool :=
  h.isTag && String.ofList (Text.lower (Text.trim h.tagName.toList)) == "br"

namespace Ast

def breaks (a : Ast) : Nat := (a.reached []).countP fun place => place.2.isLineBreak

-- No text brings a line end of its own.
def Unbroken (a : Ast) : Prop := a.head.isText = true → '\n' ∉ a.head.dataText.toList

end Ast

namespace Passes
open Ast

theorem isLineBreak_named {name : String} {m : TagMapping} (named : Tag.named? name = some m) :
    m.isLineBreak = (name == "br") := by
  have all : ∀ entry ∈ Tag.mappings, entry.2.isLineBreak = (entry.1 == "br") := by decide
  exact all _ (Table.mem_of_get? named)

def Meaning.isBreak : Meaning → Bool
  | .lineBreak => true
  | _ => false

theorem ofTag_isBreak (name : String) :
    (Meaning.ofTag name).isBreak = (String.ofList (Text.lower (Text.trim name.toList)) == "br") := by
  have reads := ofTag_reads name
  have key : ∀ m, Tag.mapping? name = some m →
      m.isLineBreak = (String.ofList (Text.lower (Text.trim name.toList)) == "br") := by
    intro m mapped
    unfold Tag.mapping? at mapped
    split at mapped
    · cases mapped
    · exact isLineBreak_named mapped
  generalize Meaning.ofTag name = sense at reads
  cases reads with
  | unmapped mapped =>
    have other : String.ofList (Text.lower (Text.trim name.toList)) ≠ "br" := by
      intro named
      unfold Tag.mapping? at mapped
      split at mapped
      · rename_i empty
        subst empty
        exact absurd named (by decide)
      · rw [named] at mapped
        exact absurd mapped (by decide)
    simp [Meaning.isBreak, other]
  | lineBreak mapped breaks => simp [← key _ mapped, breaks, Meaning.isBreak]
  | formatting mapped whole formats => simp [← key _ mapped, whole, Meaning.isBreak]
  | void mapped whole plain void => simp [← key _ mapped, whole, Meaning.isBreak]
  | element mapped whole plain holds => simp [← key _ mapped, whole, Meaning.isBreak]

theorem meaning_isBreak (h : AstHead) : (meaning h).isBreak = h.isLineBreak := by
  unfold meaning AstHead.isLineBreak AstHead.isTag
  cases h.kind with
  | tag => simpa using ofTag_isBreak h.tagName
  | text => cases h.blank || Text.isAllBlank h.dataText <;> simp [Meaning.isBreak]
  | _ => simp [Meaning.isBreak]

mutual

def gathered (mode : StyleMode) (i : Inherited) : Ast → List (List Node)
  | .node h children =>
    match meaning h with
    | .group => gatheredAll mode i children
    | .formatting mark _ =>
      becomesAll mode (i.withMark mark) children :: gatheredAll mode (i.withMark mark) children
    | .element m => gatheredAll mode (i.within mode h.tagName m) children
    | _ => []

def gatheredAll (mode : StyleMode) (i : Inherited) : List Ast → List (List Node)
  | [] => []
  | a :: rest => gathered mode i a ++ gatheredAll mode i rest

end

theorem becomesAll_ends {mode : StyleMode} {i : Inherited} {above : List AstHead} {trees : List Ast}
    (each : ∀ c ∈ trees,
      Node.endsAll (becomes mode i c) ≤ (c.reached above).countP (fun place => place.2.isLineBreak) ∧
        (Node.endsAll (becomes mode i c) =
            (c.reached above).countP (fun place => place.2.isLineBreak) ↔
          ∀ nodes ∈ gathered mode i c, Node.Smooth nodes)) :
    Node.endsAll (becomesAll mode i trees) ≤
        (reachedAll above trees).countP (fun place => place.2.isLineBreak) ∧
      (Node.endsAll (becomesAll mode i trees) =
          (reachedAll above trees).countP (fun place => place.2.isLineBreak) ↔
        ∀ nodes ∈ gatheredAll mode i trees, Node.Smooth nodes) := by
  induction trees with
  | nil => simp [becomesAll, reachedAll, gatheredAll]
  | cons c rest ih =>
    obtain ⟨first, exact⟩ := each c (by simp)
    obtain ⟨others, rest_exact⟩ := ih fun d member => each d (by simp [member])
    rw [becomesAll, reachedAll, gatheredAll, Node.endsAll_append, List.countP_append,
      List.forall_mem_append, ← exact, ← rest_exact]
    omega

theorem endsAll_formatted (mode : StyleMode) (h : AstHead) (m : TagMapping) (inside : List Node) :
    Node.endsAll (formatted mode h m inside) = Node.endsAll (Node.merged inside) := by
  rcases formatted_cases mode h m inside with plain | wrapped
  · rw [plain]
  · simp [wrapped]

theorem becomes_ends (mode : StyleMode) (a : Ast) (above : List AstHead) (i : Inherited)
    (sound : Marks.Sound i.marks) (plain : Everywhere Unbroken a) :
    Node.endsAll (becomes mode i a) ≤ (a.reached above).countP (fun place => place.2.isLineBreak) ∧
      (Node.endsAll (becomes mode i a) =
          (a.reached above).countP (fun place => place.2.isLineBreak) ↔
        ∀ nodes ∈ gathered mode i a, Node.Smooth nodes) := by
  induction a using Ast.induct generalizing above i with
  | node h children ih =>
    have inner : ∀ j : Inherited, Marks.Sound j.marks →
        Node.endsAll (becomesAll mode j children) ≤
            (reachedAll (above ++ [h]) children).countP (fun place => place.2.isLineBreak) ∧
          (Node.endsAll (becomesAll mode j children) =
              (reachedAll (above ++ [h]) children).countP (fun place => place.2.isLineBreak) ↔
            ∀ nodes ∈ gatheredAll mode j children, Node.Smooth nodes) :=
      fun j marks => becomesAll_ends fun c member =>
        ih c member (above ++ [h]) j marks (plain.inside c member)
    rw [becomes_node, reached, gathered, List.countP_cons, ← meaning_isBreak, ← meaning_isOpen]
    cases sense : meaning h with
    | nothing => simp [Meaning.isOpen, Meaning.isBreak]
    | words data =>
      obtain ⟨text, same, _⟩ := meaning_words sense
      have none : Text.lineEnds (i.leaf data "text").chars = 0 := by
        rw [Inherited.chars_leaf, ← same]
        exact List.count_eq_zero.mpr (plain.here text)
      simp [Meaning.isOpen, Meaning.isBreak, none]
    | group => simpa [Meaning.isOpen, Meaning.isBreak] using inner i sound
    | lineBreak =>
      have one : Text.lineEnds (i.leaf "\n" "br").chars = 1 := by
        rw [Inherited.chars_leaf]
        decide
      simp [Meaning.isOpen, Meaning.isBreak, one]
    | formatting mark m =>
      have marks : Marks.Sound (i.withMark mark).marks := sound.mark mark
      have solid : ∀ leaf, .text leaf ∈ becomesAll mode (i.withMark mark) children → leaf.Solid :=
        fun leaf member => (becomesAll_under mode children marks leaf member).solid
      obtain ⟨less, exact⟩ := inner _ marks
      have bound := Node.endsAll_merged_le solid
      simp only [Meaning.isOpen, Meaning.isBreak, endsAll_formatted, List.forall_mem_cons, ← exact,
        ← Node.endsAll_merged_iff solid, if_true, Bool.false_eq_true, if_false]
      omega
    | void m => simp [Meaning.isOpen, Meaning.isBreak]
    | element m =>
      have marks : Marks.Sound (i.within mode h.tagName m).marks := by simpa using sound
      simpa [Meaning.isOpen, Meaning.isBreak] using inner _ marks

-- The lists that are merged on the way from markup to the merged tree are those that formatting
-- tags gather, and after them the children of each node. In none of them neighbours clash.
structure KeepsBreaks (mode : StyleMode) (a : Ast) : Prop where
  gathering : ∀ nodes ∈ gathered mode .nothing a, Node.Smooth nodes
  merging : Everywhere Node.SmoothInside (Node.root.withChildren (becomes mode .nothing a))

-- After the structure pass and the merge pass there are never more line ends than breaks, and
-- there are as many just when nothing clashes on the way.
theorem structured_mergeTexts_ends {κ σ : Type} {ctx after : Context κ σ} {mode : StyleMode}
    (fresh : ctx.root = .root) (top : ctx.ast.head.kind = .root)
    (plain : Everywhere Unbroken ctx.ast)
    (chosen : StyleMode.ofValue (ctx.option "style_mode" (.text "inline")) = .ok mode)
    (ran : (do structured; mergeTexts : Action κ σ Unit).exec ctx = (.ok (), after)) :
    after.root.ends ≤ ctx.ast.breaks ∧
      (after.root.ends = ctx.ast.breaks ↔ KeepsBreaks mode ctx.ast) := by
  cases converted : nodesOf mode ctx.ast with
  | error f =>
    rw [Action.exec_bind, exec_structured (by rw [fresh]; rfl) chosen, converted] at ran
    cases ran
  | ok nodes =>
    obtain ⟨same, inside⟩ := nodesOf_ok top converted
    rw [exec_structured_mergeTexts fresh chosen converted (Node.mergeAll_done inside).1] at ran
    cases ran
    have alike := root_alike mode ctx.ast
    rw [← same] at alike
    obtain ⟨less, exact⟩ := Node.ends_mergeAll alike inside
    obtain ⟨few, whole⟩ := becomes_ends mode ctx.ast [] .nothing .nothing plain
    have given : (Node.root.withChildren nodes).ends = Node.endsAll (becomes mode .nothing ctx.ast) := by
      rw [same]
      rfl
    have keeps : KeepsBreaks mode ctx.ast ↔
        (∀ nodes ∈ gathered mode .nothing ctx.ast, Node.Smooth nodes) ∧
          Everywhere Node.SmoothInside (Node.root.withChildren nodes) := by
      rw [same]
      exact ⟨fun keeps => ⟨keeps.gathering, keeps.merging⟩, fun ⟨gathering, merging⟩ => ⟨gathering, merging⟩⟩
    rw [given] at less exact
    rw [keeps, ← whole, ← exact]
    unfold Ast.breaks
    dsimp only
    omega

def begun (a : Ast) : Context Empty Unit where
  ast := a
  metadata := [("style_mode", .text "inline")]
  source := .null
  metrics := none
  collecting := none
  shared := ()
  root := .root

def boldBreak : Ast :=
  .node .root [.node (.tag "b" []) [.node (.tag "br" []) [], .node (.text "x") []]]

theorem boldBreak_kept :
    ∃ after, (do structured; mergeTexts : Action Empty Unit Unit).exec (begun boldBreak) =
        (.ok (), after) ∧ after.root.ends = 1 ∧ KeepsBreaks .inline boldBreak := by
  have plain : Everywhere Unbroken boldBreak := by
    simp [boldBreak, everywhere_node, Unbroken, Ast.head, AstHead.root, AstHead.tag, AstHead.text,
      AstHead.isText, AstHead.dataText, Value.text?]
  have ran := @exec_structured_mergeTexts Empty Unit (begun boldBreak) .inline _ rfl rfl rfl rfl
  exact ⟨_, ran, rfl, (structured_mergeTexts_ends rfl rfl plain rfl ran).2.mp rfl⟩

-- Two breaks in bold, of which the second has already gone into a text when they come together.
def splitBold : Ast :=
  .node .root [
    .node (.tag "b" []) [.node (.tag "br" []) []],
    .node (.tag "b" []) [.node (.tag "br" []) [], .node (.text "x") []]]

theorem splitBold_loses_break :
    splitBold.head.kind = .root ∧ Everywhere Unbroken splitBold ∧ splitBold.breaks = 2 ∧
      ∃ after, (do structured; mergeTexts : Action Empty Unit Unit).exec (begun splitBold) =
        (.ok (), after) ∧ after.root.ends = 1 := by
  refine ⟨rfl, ?_, by decide, _, exec_structured_mergeTexts rfl rfl rfl rfl, rfl⟩
  simp [splitBold, everywhere_node, Unbroken, Ast.head, AstHead.root, AstHead.tag, AstHead.text,
    AstHead.isText, AstHead.dataText, Value.text?]

end Passes
end SemanticMarkup
