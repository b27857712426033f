import SemanticMarkup.Proofs.Conversion.Nesting
import SemanticMarkup.Proofs.Merge.Normal
import SemanticMarkup.Proofs.Pipeline.Gate
import SemanticMarkup.Proofs.Validity.Selection

namespace SemanticMarkup
open Walk Passes Node

namespace Passes

def isFormatting (n : Node) : Bool :=
  n.isElement && match n.sourceTag with
    | .text tag => (Table.get? Tag.formatting tag).isSome
    | _ => false

-- What is worth a wrapper: something, with no texts left to merge, and if it is only one node, then
-- none that could stand without it.
structure Wrapped (inside : List Node) : Prop where
  filled : inside ≠ []
  gated : Gated inside
  alone : ∀ only, inside = [only] → only.isElement = true ∧
    ∃ role ∈ [Role.block, .textContainer, .table, .row, .cell], only.role? = some role

-- After an edit a node from a formatting tag holds what is worth it.
def JustifiedAfter (edit : Node → Node) (n : Node) : Prop :=
  isFormatting n = true → Wrapped (edit n).children

def Justified (n : Node) : Prop := isFormatting n = true → Wrapped n.children

theorem needsWrapper_iff (n : Node) : needsWrapper n = true ↔ n.isElement = true ∧
    ∃ role ∈ [Role.block, .textContainer, .table, .row, .cell], n.role? = some role := by
  unfold needsWrapper
  rw [Bool.and_eq_true]
  refine and_congr_right fun _ => ?_
  cases n.role? with
  | none => simp
  | some role =>
    dsimp only
    rw [List.contains_iff_mem]
    refine ⟨fun among => ⟨role, among, rfl⟩, ?_⟩
    rintro ⟨other, among, same⟩
    cases same
    exact among

def seen (n : Node) : Option Value × Bool := (n.marks?, needsWrapper n)

theorem wrapped_congr {first second : List Node} (same : first.map seen = second.map seen) :
    Wrapped first ↔ Wrapped second := by
  have half : ∀ {first second : List Node}, first.map seen = second.map seen →
      Wrapped first → Wrapped second := by
    intro first second same wrapped
    have marks := congrArg (List.map Prod.fst) same
    rw [List.map_map, List.map_map] at marks
    refine ⟨?_, (gated_congr marks).mp wrapped.gated, ?_⟩
    · rintro rfl
      exact wrapped.filled (List.map_eq_nil_iff.mp same)
    · rintro only rfl
      obtain ⟨n, rfl, alike⟩ := List.map_eq_singleton_iff.mp same
      have needs : needsWrapper n = needsWrapper only := congrArg Prod.snd alike
      rw [← needsWrapper_iff, ← needs, needsWrapper_iff]
      exact wrapped.alone n rfl
  exact ⟨half same, half same.symm⟩

theorem isFormatting_withChildren (n : Node) (kids : List Node) :
    isFormatting (n.withChildren kids) = isFormatting n := by
  cases n <;> rfl

theorem seen_withChildren (n : Node) (kids : List Node) : seen (n.withChildren kids) = seen n := by
  cases n <;> rfl

theorem justifiedAfter_iff {f g : Node → Node} {m n : Node}
    (origin : isFormatting m = isFormatting n)
    (inside : (f m).children.map seen = (g n).children.map seen) :
    JustifiedAfter f m ↔ JustifiedAfter g n := by
  rw [JustifiedAfter, JustifiedAfter, origin]
  exact imp_congr_right fun _ => wrapped_congr inside

theorem justified_withChildren {n : Node} {kids : List Node}
    (same : kids.map seen = n.children.map seen) : Justified (n.withChildren kids) ↔ Justified n := by
  have long : kids.length = n.children.length := by simpa using congrArg List.length same
  have kept : (n.withChildren kids).children = kids := Reshaping.children_withChildren n kids long
  exact justifiedAfter_iff (f := id) (g := id) (isFormatting_withChildren n kids)
    (by simpa [kept] using same)

theorem justified_text (leaf : TextLeaf) : Justified (.text leaf) := nofun

theorem justified_of_other {n : Node} (other : isFormatting n = false) : Justified n := by
  intro formatting
  rw [other] at formatting
  cases formatting

theorem not_formatting_of_has {n : Node} {tag : String} (origin : n.hasSourceTag tag = true)
    (plain : Table.get? Tag.formatting tag = none) : isFormatting n = false := by
  simp [isFormatting, sourceTag_of_has origin, plain]

theorem not_formatting_of_section {n : Node} (inner : isTableSection n = true) :
    isFormatting n = false := by
  unfold isTableSection at inner
  unfold isFormatting
  cases origin : n.sourceTag with
  | text tag =>
    have plain : Table.get? Tag.formatting tag = none := by
      simp only [origin, Tag.isTableSection, Bool.and_eq_true, Bool.or_eq_true, beq_iff_eq] at inner
      rcases inner.2 with (rfl | rfl) | rfl <;> rfl
    simp [plain]
  | _ => simp

theorem justifiedAfter_merge {n : Node} (justified : Justified n) : JustifiedAfter mergeChildren n := by
  intro formatting
  rw [mergeChildren_of_gated (justified formatting).gated]
  exact justified formatting

theorem justified_merged {n : Node} (done : (editAll mergeChildren n).2 = true) :
    Everywhere Justified (editAll mergeChildren n).1 ↔
      Everywhere (JustifiedAfter mergeChildren) n := by
  have texts : ∀ leaf, Everywhere (JustifiedAfter mergeChildren) (.text leaf) := fun leaf =>
    .of_childless rfl nofun
  refine everywhere_editWithin_iff (f := seen) (fun n kids _ => ?_) (fun n kids same => ?_) (fun n => ?_) done
  · exact (seen_withChildren _ kids).trans (seen_withChildren n _)
  · refine (justified_withChildren same).trans ?_
    exact justifiedAfter_iff (f := id) (isFormatting_withChildren n _) rfl
  · cases n with
    | element head children =>
      show (∀ c ∈ merged children, _) ↔ ∀ c ∈ children, _
      have wrong : (∃ c ∈ merged children, ¬Everywhere (JustifiedAfter mergeChildren) c) ↔
          ∃ c ∈ children, ¬Everywhere (JustifiedAfter mergeChildren) c :=
        exists_merged fun leaf wrong => wrong (texts leaf)
      simpa using not_congr wrong
    | _ => rfl

theorem seen_marked {item : Node} (_ : isItem item = true) (marker : String) :
    seen (marked marker item) = seen item := by
  obtain ⟨leaf, rest, same, _⟩ := marked_eq marker item
  rw [same, seen_withChildren]

theorem everywhere_justified_marked {item : Node} (isItem : isItem item = true) (marker : String) :
    Everywhere Justified (marked marker item) ↔ Everywhere Justified item := by
  have other : isFormatting item = false := not_formatting_of_has isItem rfl
  have still : isFormatting (marked marker item) = false := by
    obtain ⟨leaf, rest, same, _⟩ := marked_eq marker item
    rw [same, isFormatting_withChildren, other]
  rw [Everywhere.iff_inside, Everywhere.iff_inside (a := item)]
  exact and_congr (iff_of_true (justified_of_other still) (justified_of_other other))
    (forall_marked (fun leaf => .of_childless rfl (justified_text leaf)) marker item)

theorem justified_listed {n : Node} (done : (editAll markListsIn n).2 = true) :
    Everywhere Justified (editAll markListsIn n).1 ↔ Everywhere Justified n :=
  everywhere_listed_iff (fun _ => seen_marked) (fun n kids _ => seen_withChildren n kids)
    (fun _ _ => justified_withChildren) (fun _ => everywhere_justified_marked) done

theorem justified_flattened {n : Node} (done : (editAll flattenIn n).2 = true) :
    Everywhere Justified (editAll flattenIn n).1 ↔ Everywhere Justified n := by
  refine everywhere_flattened_iff seen_withChildren (fun n kids same => ?_)
    (fun n _ inner _ => justified_of_other (not_formatting_of_section inner)) done
  cases table : n.hasSourceTag Tag.table with
  | false =>
    rw [flattenIn_of_other table] at same ⊢
    exact justified_withChildren same
  | true =>
    have other : isFormatting n = false := not_formatting_of_has table rfl
    obtain ⟨old, turned⟩ := flattenIn_eq n
    refine iff_of_true (justified_of_other ?_) (justified_of_other other)
    rw [turned, isFormatting_withChildren, isFormatting_withChildren, other]

theorem role?_edit (h : CapabilityHandler) (n : Node) : (h.edit n).role? = n.role? := by
  obtain ⟨f, same, kept⟩ := edit_eq_mapHead h n
  rw [same]
  cases n <;> simp [mapHead, role?, head?, kept]

theorem sourceTag_edit (h : CapabilityHandler) (n : Node) : (h.edit n).sourceTag = n.sourceTag := by
  obtain ⟨f, same, kept⟩ := edit_eq_mapHead h n
  rw [same]
  cases n <;> simp [mapHead, sourceTag, Node.annotations, rawAnnotations, kept]

theorem seen_edit (h : CapabilityHandler) (n : Node) : seen (h.edit n) = seen n := by
  rw [seen, seen, marks?_edit, needsWrapper, needsWrapper, role?_edit, isElement_edit]

theorem isFormatting_edit (h : CapabilityHandler) (n : Node) :
    isFormatting (h.edit n) = isFormatting n := by
  rw [isFormatting, isFormatting, isElement_edit, sourceTag_edit]

theorem justified_served (removeStyle removeClass : Bool) {n : Node}
    (done : (editAll (served removeStyle removeClass) n).2 = true) :
    Everywhere Justified (editAll (served removeStyle removeClass) n).1 ↔ Everywhere Justified n := by
  have kept := (shallow_served removeStyle removeClass).children
  refine everywhere_served_iff removeStyle removeClass seen_edit seen_withChildren (fun n kids same => ?_) done
  rw [← kept n] at same
  refine (justified_withChildren same).trans (justifiedAfter_iff (f := id) (g := id) ?_ ?_)
  · exact served_view isFormatting_edit removeStyle removeClass n
  · rw [id, id, kept]

theorem wrapped_merged {inside : List Node} (full : ¬Bare (merged inside)) : Wrapped (merged inside) := by
  refine ⟨?_, gated_merged inside, fun only one => (needsWrapper_iff only).mp ?_⟩
  · intro none
    exact full (by simp [none, Bare])
  · by_contra needless
    exact full (by simpa [one, Bare] using needless)

theorem becomes_justified (mode : StyleMode) (a : Ast) (i : Inherited) :
    ∀ n ∈ becomes mode i a, Everywhere Justified n :=
  everywhere_converted (J := fun _ => True) mode
    (fun _ => everywhere_merged justified_text)
    (fun _ _ _ _ => justified_text _) (fun _ _ _ _ _ => trivial) (fun _ _ _ _ => trivial)
    (fun _ _ _ _ _ _ full _ => wrapped_merged full)
    (fun h m kids _ plain _ => justified_of_other
      (not_formatting_of_has (by rw [hasSourceTag_head, beq_self_eq_true]) plain))
    a i trivial

end Passes

namespace Transformer
variable {ε σ : Type} {t : Transformer ε σ}

theorem grown_justified {source : String} {n root : Node} (grown : t.grown source n = .ok root)
    (justified : Everywhere Justified n) : Everywhere Justified root := by
  obtain ⟨joined, marked, flattened, dressed, rfl⟩ := grown_edits grown
  rw [justified_served _ _ dressed, justified_flattened flattened, justified_listed marked,
    justified_merged joined]
  exact justified.imp fun n => justifiedAfter_merge

-- Every element from a formatting tag that a transform gives holds at least one node, no adjacent
-- texts of equal marks, and never a text, an inline element or an image alone.
theorem wrappers_justified (t : Transformer ε σ) (unchanged : t.plugins = builtin) {a : Ast}
    (source : String) (shared : σ) {nodes : List Node}
    (fine : (t.complete.exec (t.start a source shared)).1 = .ok nodes) :
    ∀ n ∈ nodes, Everywhere Justified n := by
  obtain ⟨root, grown, rfl⟩ := grown_of_delivered unchanged fine
  refine everywhere_resultOf (grown_justified grown ?_)
  exact everywhere_element.mpr ⟨nofun, becomes_justified _ _ .nothing⟩

def boldBlock : Ast :=
  let letter : Ast := .node (.text "x") []
  .node .root [.node (.tag "b" []) [.node (.tag "div" []) [letter]], .node (.tag "b" []) [letter]]

theorem boldBlock_justified :
    usual.plugins = builtin ∧
      ∃ nodes, (usual.complete.exec (usual.start boldBlock "" ())).1 = .ok nodes ∧
        nodes.map isFormatting = [true, false] ∧ ∀ n ∈ nodes, Everywhere Justified n := by
  have inside : Within 5 boldBlock := by simp [boldBlock, Within, Branching.children, Ast.children]
  have above : Within 6 (usual.converted boldBlock) := fun n member =>
    becomes_within _ _ .nothing (Ast.within_mapHeads flagBlank inside) n member
  have none : ¬ItemAt maxDepth (usual.converted boldBlock) := fun item => by
    have low : maxDepth ≤ 6 := itemAt_le above item
    exact absurd low (by decide)
  obtain ⟨nodes, fine⟩ := complete_ok usual_plugins rfl (inside.mono (by decide)) none "" ()
  have told : (usual.grown "" (usual.converted boldBlock)).map
      (fun root => (resultOf root).map isFormatting) = .ok [true, false] := rfl
  obtain ⟨root, grown, same⟩ := grown_of_delivered usual_plugins fine
  rw [grown, Except.map, ← same] at told
  exact ⟨usual_plugins, nodes, fine, Except.ok.inj told, wrappers_justified usual usual_plugins "" () fine⟩

end Transformer
end SemanticMarkup
