import SemanticMarkup.Proofs.Conversion.Meaning
import SemanticMarkup.Proofs.Merge.Labels

namespace SemanticMarkup.Passes
open Walk

theorem meaning_words {h : AstHead} {data : String} (sense : meaning h = .words data) :
    h.isText = true ∧ h.dataText = data ∧ Text.isAllBlank data = false := by
  unfold meaning at sense
  unfold AstHead.isText
  cases kind : h.kind with
  | text =>
    simp only [kind] at sense
    split at sense
    · cases sense
    · rename_i seen
      cases sense
      simp only [Bool.or_eq_true, not_or, Bool.not_eq_true] at seen
      exact ⟨rfl, rfl, seen.2⟩
  | tag =>
    have reads := ofTag_reads h.tagName
    simp only [kind] at sense
    rw [sense] at reads
    cases reads
  | _ =>
    simp only [kind] at sense
    cases sense

theorem becomesAll_eq_flatMap (mode : StyleMode) (i : Inherited) (trees : List Ast) :
    becomesAll mode i trees = trees.flatMap (becomes mode i) := by
  induction trees with
  | nil => rw [becomesAll, List.flatMap_nil]
  | cons a rest ih => rw [becomesAll, List.flatMap_cons, ih]

theorem mem_becomesAll {mode : StyleMode} {i : Inherited} {trees : List Ast} {n : Node} :
    n ∈ becomesAll mode i trees ↔ ∃ c ∈ trees, n ∈ becomes mode i c := by
  rw [becomesAll_eq_flatMap, List.mem_flatMap]

namespace Inherited

def styleValue (i : Inherited) : Value := unlessEmpty i.styles

def classValue (i : Inherited) : Value :=
  if i.classes.isEmpty then .null else .text (String.intercalate " " i.classes)

@[simp] theorem within_marks (i : Inherited) (mode : StyleMode) (tag : String) (m : TagMapping) :
    (i.within mode tag m).marks = i.marks := by
  unfold within
  split
  · split
    · rfl
    · split <;> rfl
  · rfl

variable {i : Inherited}

theorem chars_leaf (content source : String) : (i.leaf content source).chars = content.toList := rfl

theorem isBreak_leaf (content source : String) :
    (i.leaf content source).isBreak = (source == "br") := by
  simp [leaf, TextLeaf.isBreak, Value.record?, Table.getD, Table.get?_cons, Value.isText, Value.text?]

theorem leaf_under (sound : Marks.Sound i.marks) (content source : String)
    (lasting : Text.isAllBlank content = false ∨ '\n' ∈ content.toList)
    (bare : source = "br" → content = "\n") :
    (i.leaf content source).Under i.styleValue i.classValue := by
  refine ⟨⟨⟨content, rfl⟩, ⟨i.marks, rfl, sound⟩, lasting, ?_⟩, rfl, rfl⟩
  intro breaks
  rw [isBreak_leaf, beq_iff_eq] at breaks
  rw [chars_leaf, bare breaks]
  rfl

end Inherited

theorem becomes_under (mode : StyleMode) (a : Ast) (i : Inherited) (sound : Marks.Sound i.marks) :
    ∀ leaf, .text leaf ∈ becomes mode i a → leaf.Under i.styleValue i.classValue := by
  induction a using Ast.induct generalizing i with
  | node h children ih =>
    rw [becomes_node]
    cases sense : meaning h with
    | nothing => simp
    | words data =>
      obtain ⟨_, _, seen⟩ := meaning_words sense
      have under := Inherited.leaf_under sound data "text" (.inl seen) (by simp)
      simpa using under
    | group =>
      intro leaf member
      obtain ⟨c, inside, old⟩ := mem_becomesAll.mp member
      exact ih c inside i sound leaf old
    | lineBreak =>
      have under := Inherited.leaf_under sound "\n" "br" (.inr (by decide)) (by simp)
      simpa using under
    | formatting mark m =>
      have given : ∀ leaf, .text leaf ∈ becomesAll mode (i.withMark mark) children →
          leaf.Under i.styleValue i.classValue := by
        intro leaf member
        obtain ⟨c, inside, old⟩ := mem_becomesAll.mp member
        exact ih c inside (i.withMark mark) (sound.mark mark) leaf old
      simp only
      intro leaf member
      rcases formatted_cases mode h m (becomesAll mode (i.withMark mark) children) with plain | wrapped
      · rw [plain] at member
        exact Node.merged_under given leaf member
      · -- A wrapper keeps its texts to itself.
        rw [wrapped] at member
        simp at member
    | void m => simp
    | element m => simp

theorem becomesAll_under (mode : StyleMode) (trees : List Ast) {i : Inherited}
    (sound : Marks.Sound i.marks) :
    ∀ leaf, .text leaf ∈ becomesAll mode i trees → leaf.Under i.styleValue i.classValue := by
  intro leaf member
  obtain ⟨c, _, old⟩ := mem_becomesAll.mp member
  exact becomes_under mode c i sound leaf old

theorem becomes_alike (mode : StyleMode) (a : Ast) (i : Inherited) (sound : Marks.Sound i.marks) :
    ∀ n ∈ becomes mode i a, Everywhere Node.AlikeInside n := by
  have childless : ∀ n : Node, n.children = [] → Everywhere Node.AlikeInside n :=
    fun n none => .of_childless none ⟨.null, .null, by simp [none]⟩
  induction a using Ast.induct generalizing i with
  | node h children ih =>
    have inside : ∀ j : Inherited, Marks.Sound j.marks → ∀ n ∈ becomesAll mode j children,
        Everywhere Node.AlikeInside n := by
      intro j marks n member
      obtain ⟨c, among, old⟩ := mem_becomesAll.mp member
      exact ih c among j marks n old
    rw [becomes_node]
    cases meaning h with
    | nothing => simp
    | words data => simpa using childless _ rfl
    | group => exact inside i sound
    | lineBreak => simpa using childless _ rfl
    | formatting mark m =>
      have marks : Marks.Sound (i.withMark mark).marks := sound.mark mark
      have merged := Node.everywhere_merged Node.alikeInside_text (inside _ marks)
      simp only
      rcases formatted_cases mode h m (becomesAll mode (i.withMark mark) children) with plain | wrapped
      · rw [plain]
        exact merged
      · rw [wrapped]
        intro n member
        rw [List.mem_singleton] at member
        subst member
        exact .intro ⟨_, _, Node.merged_under (becomesAll_under mode children marks)⟩ merged
    | void m => simpa using childless _ rfl
    | element m =>
      have marks : Marks.Sound (i.within mode h.tagName m).marks := by simpa using sound
      intro n member
      rw [List.mem_singleton] at member
      subst member
      exact .intro ⟨_, _, becomesAll_under mode children marks⟩ (inside _ marks)

theorem root_alike (mode : StyleMode) (a : Ast) :
    Everywhere Node.AlikeInside (Node.root.withChildren (becomes mode .nothing a)) :=
  .intro ⟨_, _, becomes_under mode a .nothing .nothing⟩ (becomes_alike mode a .nothing .nothing)

end SemanticMarkup.Passes
