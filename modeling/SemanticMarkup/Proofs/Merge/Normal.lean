import Mathlib.Data.List.Forall2
import SemanticMarkup.Proofs.Merge.Gate
import SemanticMarkup.Proofs.Merge.Segments
import SemanticMarkup.Proofs.Tree.Shallow

namespace SemanticMarkup
open Walk

-- A tree as it is read: its elements as they open and close, and between them the visible
-- characters, each with the marks of its text.
inductive Sign where
  | opens (head : ElementHead)
  | closes
  | barren (head : ElementHead) (given : Hollow)
  | alien (kind : Value)
  | char (c : Char) (marks : Value)

inductive Sign.Alike : Sign → Sign → Prop where
  | same (s : Sign) : Alike s s
  | char (c : Char) {a b : Value} (marks : Marks.same a b = true) : Alike (.char c a) (.char c b)

namespace TextLeaf
variable {r : OpenRun} {next : TextLeaf}

def signs (leaf : TextLeaf) : List Sign :=
  (Text.visible leaf.chars).map fun c => .char c leaf.marks

theorem signs_join (old : ∃ s, r.leaf.content = .text s) (new : ∃ s, next.content = .text s)
    (same : r.leaf.sameMarks next = true) :
    ∃ added, (r.join next).leaf.signs = r.leaf.signs ++ added ∧
      List.Forall₂ Sign.Alike added next.signs := by
  refine ⟨(Text.visible next.chars).map fun c => .char c r.leaf.marks, ?_, ?_⟩
  · have kept : (r.join next).leaf.marks = r.leaf.marks := rfl
    rw [signs, signs, visible_join old new, kept, List.map_append]
  · rw [signs, List.forall₂_map_left_iff, List.forall₂_map_right_iff]
    exact List.forall₂_same.mpr fun c _ => .char c same

end TextLeaf

namespace Node

mutual

def signs : Node → List Sign
  | .element head children => .opens head :: (signsAll children ++ [.closes])
  | .barren head given => [.barren head given]
  | .text leaf => leaf.signs
  | .alien kind => [.alien kind]

def signsAll : List Node → List Sign
  | [] => []
  | n :: rest => n.signs ++ signsAll rest

end

-- A text has content that is text; anything else may be as it is.
def Worded : Node → Prop
  | .text leaf => ∃ s, leaf.content = .text s
  | _ => True

theorem alike_refl (signs : List Sign) : List.Forall₂ Sign.Alike signs signs :=
  List.forall₂_same.mpr fun s _ => .same s

theorem signs_mergeFrom {edit : Node → Node} (texts : ∀ leaf, edit (.text leaf) = .text leaf)
    {run : Option OpenRun} {nodes : List Node} (begun : ∀ r ∈ run, ∃ s, r.leaf.content = .text s)
    (worded : ∀ n ∈ nodes, n.Worded)
    (kept : ∀ n ∈ nodes, List.Forall₂ Sign.Alike (edit n).signs n.signs) {read : List Sign}
    (before : List.Forall₂ Sign.Alike (signsAll (opening run)) read) :
    List.Forall₂ Sign.Alike (signsAll ((mergeFrom run nodes).map edit))
      (read ++ signsAll nodes) := by
  -- What was read of the open run is carried along: what joins it is compared with its first text only.
  fun_induction mergeFrom run nodes generalizing read with
  | case1 => simpa [signsAll, opening] using before
  | case2 r => simpa [signsAll, opening, texts] using before
  | case3 leaf rest ih =>
    obtain ⟨content, later⟩ := List.forall_mem_cons.mp worded
    have none : read = [] := by simpa [signsAll, opening] using before
    have others := ih (by simpa [OpenRun.start, Worded] using content) later (List.forall_mem_cons.mp kept).2
      (alike_refl _)
    simpa [none, signsAll, opening, OpenRun.start, signs] using others
  | case4 r leaf rest same ih =>
    obtain ⟨content, later⟩ := List.forall_mem_cons.mp worded
    obtain ⟨added, whole, alike⟩ := TextLeaf.signs_join (begun r rfl) content same
    have first : List.Forall₂ Sign.Alike r.leaf.signs read := by
      simpa [signsAll, opening, signs] using before
    have joined : List.Forall₂ Sign.Alike (signsAll (opening (some (r.join leaf))))
        (read ++ leaf.signs) := by
      simpa [signsAll, opening, signs, whole] using List.rel_append first alike
    have others := ih (by simpa using TextLeaf.content_join (begun r rfl) content) later
      (List.forall_mem_cons.mp kept).2 joined
    simpa [signsAll, signs] using others
  | case5 r leaf rest other ih =>
    obtain ⟨content, later⟩ := List.forall_mem_cons.mp worded
    have others := ih (by simpa [OpenRun.start, Worded] using content) later (List.forall_mem_cons.mp kept).2
      (alike_refl _)
    have first : List.Forall₂ Sign.Alike (edit (.text r.leaf)).signs read := by
      simpa [signsAll, opening, texts] using before
    simpa [signsAll, opening, OpenRun.start, signs] using List.rel_append first others
  | case6 n rest other ih =>
    obtain ⟨one, rest⟩ := List.forall_mem_cons.mp kept
    have none : read = [] := by simpa [signsAll, opening] using before
    have others := ih (by simp) (List.forall_mem_cons.mp worded).2 rest (alike_refl [])
    simpa [none, signsAll] using List.rel_append one others
  | case7 r n rest other ih =>
    obtain ⟨one, rest⟩ := List.forall_mem_cons.mp kept
    have others := ih (by simp) (List.forall_mem_cons.mp worded).2 rest (alike_refl [])
    have first : List.Forall₂ Sign.Alike (edit (.text r.leaf)).signs read := by
      simpa [signsAll, opening, texts] using before
    simpa [signsAll] using List.rel_append first (List.rel_append one others)

theorem signs_merged {nodes : List Node} (worded : ∀ n ∈ nodes, n.Worded) :
    List.Forall₂ Sign.Alike (signsAll (merged nodes)) (signsAll nodes) := by
  have read : List.Forall₂ Sign.Alike (signsAll ((mergeFrom none nodes).map id)) ([] ++ signsAll nodes) :=
    signs_mergeFrom (fun _ => rfl) (by simp) worded (fun n _ => alike_refl n.signs) (alike_refl [])
  simpa [merged] using read

theorem editWithin_text (levels : Nat) (leaf : TextLeaf) :
    (editWithin mergeChildren levels (.text leaf)).1 = .text leaf := by
  cases levels with
  | zero => rfl
  | succ levels => rfl

theorem signs_mergeWithin {levels : Nat} {n : Node} (worded : Everywhere Worded n)
    (done : (editWithin mergeChildren levels n).2 = true) :
    List.Forall₂ Sign.Alike (editWithin mergeChildren levels n).1.signs n.signs := by
  induction levels generalizing n with
  | zero => cases done
  | succ levels ih =>
    cases n with
    | element head children =>
      have each : ∀ c ∈ merged children, (editWithin mergeChildren levels c).2 = true :=
        (editWithin_done mergeChildren levels _).mp done
      have kept : ∀ c ∈ children,
          List.Forall₂ Sign.Alike (editWithin mergeChildren levels c).1.signs c.signs := by
        intro c member
        rcases c.text_or_other with ⟨leaf, rfl⟩ | other
        · rw [editWithin_text]
          exact alike_refl _
        · exact ih (worded.inside c member) (each c (mem_mergeFrom_of_other other none member))
      have inner : List.Forall₂ Sign.Alike
          (signsAll ((merged children).map fun c => (editWithin mergeChildren levels c).1))
          ([] ++ signsAll children) :=
        signs_mergeFrom (editWithin_text levels) (by simp)
          (fun c member => (worded.inside c member).here) kept (alike_refl [])
      rw [editWithin_all each]
      exact .cons (.same _) (List.rel_append inner (.cons (.same _) .nil))
    | _ => exact alike_refl _

theorem joins_eq_false_iff (a b : Node) : joins a b = false ↔ Apart a.marks? b.marks? := by
  cases a <;> cases b <;> simp [joins, marks?, Apart, TextLeaf.sameMarks]

theorem merged_of_gated {nodes : List Node} (gated : Gated nodes) : merged nodes = nodes := by
  induction nodes with
  | nil => rfl
  | cons n rest ih =>
    obtain ⟨apart, later⟩ := gated_cons.mp gated
    have others : mergeFrom none rest = rest := ih later
    rcases n.text_or_other with ⟨leaf, rfl⟩ | other
    · have closed : ∀ m ∈ rest.head?, joins (.text leaf) m = false := by
        intro m next
        refine (joins_eq_false_iff _ m).mpr (apart m.marks? ?_)
        rw [List.head?_map, Option.mem_def.mp next]
        rfl
      rw [merged, mergeFrom, mergeFrom_closed closed, others]
      rfl
    · rw [merged, mergeFrom_of_other other, others]
      rfl

theorem mergeChildren_of_gated {n : Node} (gated : Gated n.children) : n.mergeChildren = n := by
  rw [mergeChildren, merged_of_gated gated, withChildren_children]

theorem mergeAll_of_gated {n : Node} (gated : Everywhere (fun n => Gated n.children) n) :
    (mergeAll n).1 = n := editWithin_still (gated.imp fun _ => mergeChildren_of_gated)

-- Merging comes to an end that it does not go beyond: no text is left next to one with equal marks,
-- merging again changes nothing, and all that can be read is read as before. The same holds of
-- every list of nodes.
theorem mergeAll_normal {root : Node} (inside : Within maxDepth root)
    (worded : Everywhere Worded root) :
    (∃ result, mergeAll root = (result, true) ∧ Everywhere (fun n => Gated n.children) result ∧
        List.Forall₂ Sign.Alike result.signs root.signs ∧ mergeAll result = (result, true)) ∧
      ∀ nodes : List Node, (∀ n ∈ nodes, n.Worded) → Gated (merged nodes) ∧
        List.Forall₂ Sign.Alike (signsAll (merged nodes)) (signsAll nodes) ∧
          merged (merged nodes) = merged nodes := by
  obtain ⟨done, deep⟩ := mergeAll_done inside
  have gated := gated_mergeAll done
  refine ⟨⟨(mergeAll root).1, Prod.ext rfl done, gated, signs_mergeWithin worded done, ?_⟩, ?_⟩
  · exact Prod.ext (mergeAll_of_gated gated) (mergeAll_done deep).1
  · intro nodes given
    exact ⟨gated_merged nodes, signs_merged given, merged_of_gated (gated_merged nodes)⟩

def view (children : List Node) : Node := .element ⟨.text "view", .null, .null, .absent, .null⟩ children

def brokenPage : Node :=
  view [.text (unmarked "a "), .text lineBreak, .text (unmarked " b"),
    view [.text (unmarked "x"), .text (unmarked "y")], .text (unmarked "c")]

theorem brokenPage_normal :
    Within maxDepth brokenPage ∧ Everywhere Worded brokenPage ∧
      (∃ result, mergeAll brokenPage = (result, true) ∧
        Everywhere (fun n => Gated n.children) result ∧
        List.Forall₂ Sign.Alike result.signs brokenPage.signs ∧ mergeAll result = (result, true)) ∧
      Gated (merged brokenPage.children) ∧
        List.Forall₂ Sign.Alike (signsAll (merged brokenPage.children)) (signsAll brokenPage.children) ∧
          merged (merged brokenPage.children) = merged brokenPage.children := by
  have shallow : Within 2 brokenPage := by
    simp [brokenPage, view, Within, Branching.children, children]
  have deep := shallow.mono (show 2 ≤ maxDepth by decide)
  have texts : ∀ s, Everywhere Worded (.text (unmarked s)) := fun s => .of_childless rfl ⟨s, rfl⟩
  have broken : Everywhere Worded (.text lineBreak) := .of_childless rfl ⟨_, rfl⟩
  have worded : Everywhere Worded brokenPage := by
    simp [brokenPage, view, everywhere_element, texts, broken, Worded]
  obtain ⟨whole, lists⟩ := mergeAll_normal deep worded
  exact ⟨deep, worded, whole, lists _ fun n member => (worded.inside n member).here⟩

end Node
end SemanticMarkup
