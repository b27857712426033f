import SemanticMarkup.Proofs.Likeness.Tree
import SemanticMarkup.Proofs.Pipeline.Ceiling

namespace SemanticMarkup
open Walk Passes

namespace Ast
variable {R S : AstHead → AstHead → Prop} {a b : Ast}

-- Markup trees of one shape, with related heads at the same places.
inductive Twins (R : AstHead → AstHead → Prop) : Ast → Ast → Prop where
  | node {h k : AstHead} {cs ds : List Ast} (heads : R h k) (inside : List.Forall₂ (Twins R) cs ds) :
    Twins R (.node h cs) (.node k ds)

namespace Twins

theorem of_everywhere (all : Everywhere (fun c : Ast => R c.head c.head) a) : Twins R a a := by
  induction a using Ast.induct with
  | node h children ih =>
    obtain ⟨here, below⟩ := everywhere_node.mp all
    exact .node here (List.forall₂_same.mpr fun c member => ih c member (below c member))

theorem within (twins : Twins R a b) {levels : Nat} (inside : Within levels a) : Within levels b := by
  induction levels generalizing a b with
  | zero =>
    cases twins with
    | node _ below =>
      cases below with
      | nil => exact inside
      | cons one others => cases inside
  | succ levels ih =>
    cases twins with
    | node _ below =>
      intro d member
      obtain ⟨c, old, one⟩ := exists_related below member
      exact ih one (inside c old)

theorem flip (twins : Twins R a b) : Twins (fun k h => R h k) b a := by
  induction a using Ast.induct generalizing b with
  | node h children ih =>
    cases twins with
    | node heads inside =>
      refine .node heads (List.Forall₂.flip ?_)
      exact ((List.forall₂_and_left _ _).mpr ⟨ih, inside⟩).imp fun c d fact => fact.1 fact.2

theorem within_iff (twins : Twins R a b) (levels : Nat) : Within levels a ↔ Within levels b :=
  ⟨twins.within, twins.flip.within⟩

theorem mapHeads (twins : Twins R a b) (f : AstHead → AstHead) (related : ∀ h k, R h k → S (f h) (f k)) :
    Twins S (a.mapHeads f) (b.mapHeads f) := by
  induction a using Ast.induct generalizing b with
  | node h children ih =>
    cases twins with
    | node heads inside =>
      rw [Ast.mapHeads, Ast.mapHeads, mapHeadsAll_eq_map, mapHeadsAll_eq_map]
      refine .node (related _ _ heads) (List.forall₂_map_left_iff.mpr (List.forall₂_map_right_iff.mpr ?_))
      exact ((List.forall₂_and_left _ _).mpr ⟨ih, inside⟩).imp fun c d fact => fact.1 fact.2

end Twins
end Ast

namespace Passes
open Node

theorem isTag_of_tagged {h : AstHead} {sense : Meaning} (same : meaning h = sense)
    (tagged : sense.isTagged = true) : h.isTag = true := by
  subst same
  unfold meaning at tagged
  unfold AstHead.isTag
  cases kind : h.kind with
  | tag => rfl
  | text =>
    simp only [kind] at tagged
    split at tagged <;> cases tagged
  | _ =>
    simp only [kind] at tagged
    cases tagged

-- Two conversions that keep to a relation of nodes, from related heads and with what is handed
-- down related, in two modes or in one.
structure Parallel (R : Node → Node → Prop) (mode other : StyleMode) (H : AstHead → AstHead → Prop)
    (I : Inherited → Inherited → Prop) : Prop where
  meaning : ∀ {h k}, H h k → meaning h = meaning k
  element : ∀ {h k m target kids others}, H h k → h.isTag = true →
    Tag.mapping? h.tagName = some m → List.Forall₂ R kids others →
    R (.element (head mode h m target) kids) (.element (head other k m target) others)
  text : ∀ {i j}, I i j → ∀ content source,
    R (.text (i.leaf content source)) (.text (j.leaf content source))
  withMark : ∀ {i j}, I i j → ∀ mark, I (i.withMark mark) (j.withMark mark)
  within : ∀ {i j h k m}, I i j → H h k → h.isTag = true → Tag.mapping? h.tagName = some m →
    I (i.within mode h.tagName m) (j.within other k.tagName m)
  merged : ∀ {nodes others}, List.Forall₂ R nodes others →
    List.Forall₂ R (Node.merged nodes) (Node.merged others)
  needsWrapper : ∀ {n m}, R n m → needsWrapper n = needsWrapper m

theorem formatted_related {R : Node → Node → Prop} {mode other : StyleMode} {h k : AstHead} {m : TagMapping}
    {inside others : List Node} (needs : ∀ {n m}, R n m → needsWrapper n = needsWrapper m)
    (wrapper : ∀ {kids more}, List.Forall₂ R kids more →
      R (.element (head mode h m "text") kids) (.element (head other k m "text") more))
    (merged : List.Forall₂ R (Node.merged inside) (Node.merged others)) :
    List.Forall₂ R (formatted mode h m inside) (formatted other k m others) := by
  unfold formatted
  generalize Node.merged inside = first at merged
  generalize Node.merged others = second at merged
  cases merged with
  | nil => exact .nil
  | cons one rest =>
    cases rest with
    | nil =>
      dsimp only
      rw [needs one]
      split
      · exact .cons (wrapper (.cons one .nil)) .nil
      · exact .cons one .nil
    | cons two more => exact .cons (wrapper (.cons one (.cons two more))) .nil

theorem formatted_resembles {like : Likeness} {mode other : StyleMode} {h k : AstHead} {m : TagMapping}
    {inside others : List Node} (heads : like.heads (head mode h m "text") (head other k m "text"))
    (alike : List.Forall₂ (Resembles like) inside others) :
    List.Forall₂ (Resembles like) (formatted mode h m inside) (formatted other k m others) :=
  formatted_related Resembles.needsWrapper (.element heads) (merged_resembles alike)

namespace Parallel
variable {R : Node → Node → Prop} {mode other : StyleMode} {H : AstHead → AstHead → Prop}
  {I : Inherited → Inherited → Prop}

theorem becomesAll_of_each {i j : Inherited} {cs ds : List Ast}
    (each : List.Forall₂ (fun c d => List.Forall₂ R (becomes mode i c) (becomes other j d)) cs ds) :
    List.Forall₂ R (becomesAll mode i cs) (becomesAll other j ds) := by
  induction each with
  | nil =>
    rw [becomesAll, becomesAll]
    exact .nil
  | cons one _ ih =>
    rw [becomesAll, becomesAll]
    exact List.rel_append one ih

theorem becomes (parallel : Parallel R mode other H I) {a b : Ast} (twins : a.Twins H b)
    {i j : Inherited} (handed : I i j) :
    List.Forall₂ R (becomes mode i a) (Passes.becomes other j b) := by
  induction a using Ast.induct generalizing b i j with
  | node h children ih =>
    cases twins with
    | @node _ k _ ds heads inside =>
      have below : ∀ {i j}, I i j →
          List.Forall₂ R (becomesAll mode i children) (becomesAll other j ds) := by
        intro i j given
        refine becomesAll_of_each ?_
        exact ((List.forall₂_and_left _ _).mpr ⟨ih, inside⟩).imp fun c d fact => fact.1 fact.2 given
      rw [becomes_node, becomes_node, ← parallel.meaning heads]
      cases sense : Passes.meaning h with
      | nothing => exact .nil
      | words data => exact .cons (parallel.text handed data "text") .nil
      | group => exact below handed
      | lineBreak => exact .cons (parallel.text handed "\n" "br") .nil
      | formatting mark m =>
        cases tagged_reads sense rfl with
        | formatting mapped =>
          exact formatted_related parallel.needsWrapper
            (parallel.element heads (isTag_of_tagged sense rfl) mapped)
            (parallel.merged (below (parallel.withMark handed mark)))
      | void m =>
        have tag := isTag_of_tagged sense rfl
        cases tagged_reads sense rfl with
        | void mapped => exact .cons (parallel.element heads tag mapped .nil) .nil
      | element m =>
        have tag := isTag_of_tagged sense rfl
        cases tagged_reads sense rfl with
        | element mapped =>
          have inner := below (parallel.within handed heads tag mapped)
          exact .cons (parallel.element heads tag mapped inner) .nil

theorem becomesAll (parallel : Parallel R mode other H I) {cs ds : List Ast}
    (twins : List.Forall₂ (Ast.Twins H) cs ds) {i j : Inherited} (handed : I i j) :
    List.Forall₂ R (becomesAll mode i cs) (Passes.becomesAll other j ds) :=
  becomesAll_of_each (twins.imp fun _ _ one => parallel.becomes one handed)

end Parallel

-- Two conversions that go side by side: heads that mean the same and give like elements, and what
-- is handed down gives like texts, in two modes or in one.
structure Alongside (like : Likeness) (mode other : StyleMode) (R : AstHead → AstHead → Prop)
    (I : Inherited → Inherited → Prop) : Prop where
  meaning : ∀ {h k}, R h k → meaning h = meaning k
  head : ∀ {h k m target}, R h k → h.isTag = true → Tag.mapping? h.tagName = some m →
    like.heads (head mode h m target) (Passes.head other k m target)
  leaf : ∀ {i j}, I i j → ∀ content source, like.leaves (i.leaf content source) (j.leaf content source)
  withMark : ∀ {i j}, I i j → ∀ mark, I (i.withMark mark) (j.withMark mark)
  within : ∀ {i j h k m}, I i j → R h k → h.isTag = true → Tag.mapping? h.tagName = some m →
    I (i.within mode h.tagName m) (j.within other k.tagName m)

namespace Alongside
variable {like : Likeness} {mode other : StyleMode} {R : AstHead → AstHead → Prop}
  {I : Inherited → Inherited → Prop}

theorem parallel (along : Alongside like mode other R I) : Parallel (Resembles like) mode other R I where
  meaning := along.meaning
  element heads tag mapped inside := .element (along.head heads tag mapped) inside
  text handed content source := .text (along.leaf handed content source)
  withMark := along.withMark
  within := along.within
  merged := merged_resembles
  needsWrapper := Resembles.needsWrapper

theorem becomes (along : Alongside like mode other R I) {a b : Ast} (twins : a.Twins R b)
    {i j : Inherited} (handed : I i j) :
    List.Forall₂ (Resembles like) (becomes mode i a) (Passes.becomes other j b) :=
  along.parallel.becomes twins handed

end Alongside
end Passes

namespace Transformer
open Node
variable {ε σ : Type} {t u : Transformer ε σ} {like : Likeness} {R S : AstHead → AstHead → Prop}
  {I : Inherited → Inherited → Prop} {a b : Ast} {n m : Node}

theorem converted_resembles (along : Alongside like t.options.styleMode u.options.styleMode S I)
    (nothing : I .nothing .nothing) (root : like.heads ⟨.text "root", .record [], .null, .absent, .record []⟩
      ⟨.text "root", .record [], .null, .absent, .record []⟩)
    (flagged : ∀ h k, R h k → S (flagBlank h) (flagBlank k)) (twins : a.Twins R b) :
    Resembles like (t.converted a) (u.converted b) :=
  .element root (along.becomes (twins.mapHeads flagBlank flagged) nothing)

def shaped (n : Node) : Except Fault Node := do
  let merged ← Walk.finished Node.mergeChildren n
  let listed ← Walk.finished markListsIn merged
  Walk.finished flattenIn listed

theorem grown_eq (t : Transformer ε σ) (source : String) (n : Node) :
    t.grown source n = shaped n >>= fun flat =>
      (Walk.finished (served t.options.removeAllStyle.isTrue t.options.removeAllClass.isTrue)
        flat).mapError fun _ => .tooDeep depthLimit "capability" (.text source) none := by
  simp only [grown, shaped, bind_assoc]

section Kin
variable {L : TextLeaf → TextLeaf → Prop} {Q : Node → Node → Prop} (kin : Kindred L Q)
include kin

theorem shaped_kindred (alike : Q n m) : Paired Q (shaped n) (shaped m) := by
  refine (finished_kindred kin kin.mergeChildren alike).bind fun first second merged => ?_
  refine (finished_kindred kin kin.markListsIn merged).bind fun third fourth listed => ?_
  exact finished_kindred kin kin.flattenIn listed

theorem grown_kindred (source other : String)
    (dressed : ∀ {n m}, Q n m →
      Q (served t.options.removeAllStyle.isTrue t.options.removeAllClass.isTrue n)
        (served t.options.removeAllStyle.isTrue t.options.removeAllClass.isTrue m))
    (alike : Q n m) : Paired Q (t.grown source n) (t.grown other m) := by
  rw [grown_eq, grown_eq]
  refine (shaped_kindred kin alike).bind fun first second flat => ?_
  exact (finished_kindred kin dressed flat).mapError _ _

end Kin

theorem shaped_resembles (alike : Resembles like n m) :
    Paired (Resembles like) (shaped n) (shaped m) := shaped_kindred (kindred_resembles like) alike

theorem grown_resembles (source other : String)
    (dressed : ∀ n m, Resembles like n m →
      Resembles like (served t.options.removeAllStyle.isTrue t.options.removeAllClass.isTrue n)
        (served t.options.removeAllStyle.isTrue t.options.removeAllClass.isTrue m))
    (alike : Resembles like n m) : Paired (Resembles like) (t.grown source n) (t.grown other m) :=
  grown_kindred (kindred_resembles like) source other (fun {n m} => dressed n m) alike

theorem complete_eq_grown (unchanged : t.plugins = builtin) (top : a.head.kind = .root)
    (inside : Within maxDepth a) (source : String) (shared : σ) :
    (t.complete.exec (t.start a source shared)).1 = (t.grown source (t.converted a)).map resultOf := by
  have deep := converted_within t top inside
  have proper := converted_proper t a
  rw [complete_of_within t unchanged inside]
  by_cases item : ItemAt maxDepth (t.converted a)
  · rw [grown_error source deep proper item]
    rfl
  · obtain ⟨root, grown, low, fine⟩ := grown_ok t source deep proper item
    rw [grown]
    exact delivered_ok t low fine

theorem markup_error (deep : ¬Within maxDepth a) (step : Ast × Node → Except Fault (Ast × Node)) :
    (markupStep flagAst >=> step) (a, n) = .error depthFault := by
  have stopped : (editAll flagAst a).2 ≠ true := by
    intro done
    have kept : ∀ c : Ast, Branching.children (flagAst c) = Branching.children c := fun c => rfl
    exact deep (within_of_edited kept done)
  have failed : markupStep flagAst (a, n) = .error depthFault := by
    unfold markupStep Walk.finished
    rw [if_neg stopped]
    rfl
  show (markupStep flagAst (a, n) >>= step) = _
  rw [failed]
  rfl

theorem complete_too_deep (unchanged : t.plugins = builtin) (deep : ¬Within maxDepth a)
    (source : String) (shared : σ) :
    (t.complete.exec (t.start a source shared)).1 = .error depthFault := by
  have failed : t.passes source (a, .root) = .error depthFault := markup_error deep _
  rw [complete_eq t unchanged, failed]
  rfl

theorem resultOf_related {Q : Node → Node → Prop}
    (children : ∀ {n m}, Q n m → n.isElement = m.isElement ∧ List.Forall₂ Q n.children m.children)
    (alike : Q n m) : List.Forall₂ Q (resultOf n) (resultOf m) := by
  obtain ⟨kind, inside⟩ := children alike
  unfold resultOf
  rw [kind]
  split
  · exact inside
  · exact .cons alike .nil

theorem complete_related {Q : Node → Node → Prop}
    (children : ∀ {n m}, Q n m → n.isElement = m.isElement ∧ List.Forall₂ Q n.children m.children)
    (unchanged : t.plugins = builtin) (kept : u.plugins = builtin)
    (top : a.head.kind = .root) (other : b.head.kind = .root) (levels : Within maxDepth a ↔ Within maxDepth b)
    (grown : ∀ first second,
      Paired Q (t.grown first (t.converted a)) (u.grown second (u.converted b)))
    (source document : String) (shared given : σ) :
    Paired (List.Forall₂ Q) (t.complete.exec (t.start a source shared)).1
      (u.complete.exec (u.start b document given)).1 := by
  by_cases inside : Within maxDepth a
  · rw [complete_eq_grown unchanged top inside, complete_eq_grown kept other (levels.mp inside)]
    exact (grown source document).map fun _ _ => resultOf_related children
  · have deep : ¬Within maxDepth b := fun low => inside (levels.mpr low)
    rw [complete_too_deep unchanged inside, complete_too_deep kept deep]
    exact .error _ _

theorem complete_resembles (unchanged : t.plugins = builtin) (kept : u.plugins = builtin)
    (top : a.head.kind = .root) (other : b.head.kind = .root) (levels : Within maxDepth a ↔ Within maxDepth b)
    (grown : ∀ first second,
      Paired (Resembles like) (t.grown first (t.converted a)) (u.grown second (u.converted b)))
    (source document : String) (shared given : σ) :
    Paired (List.Forall₂ (Resembles like)) (t.complete.exec (t.start a source shared)).1
      (u.complete.exec (u.start b document given)).1 :=
  complete_related (fun alike => ⟨alike.isElement, alike.children⟩) unchanged kept top other levels grown
    source document shared given

end Transformer
end SemanticMarkup
