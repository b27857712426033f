import SemanticMarkup.Proofs.Merge.Gate
import SemanticMarkup.Proofs.Pipeline.Ceiling
import SemanticMarkup.Proofs.Pipeline.Dressing

namespace SemanticMarkup
open Walk Passes Node

namespace Passes
variable {Q : Bool → Prop}

-- After an edit the children of a node are gated, if it is a node that is asked about: tables are,
-- or all others, or every node.
def GatedAfter (edit : Node → Node) (Q : Bool → Prop) (n : Node) : Prop :=
  Q (n.hasSourceTag Tag.table) → Gated (edit n).children

theorem gatedAfter_iff {first second : Node → Node} {m n : Node}
    (tag : m.hasSourceTag Tag.table = n.hasSourceTag Tag.table)
    (gated : Gated (first m).children ↔ Gated (second n).children) :
    GatedAfter first Q m ↔ GatedAfter second Q n := by
  rw [GatedAfter, GatedAfter, tag]
  exact imp_congr_right fun _ => gated

theorem isTableSection_withChildren (n : Node) (kids : List Node) :
    isTableSection (n.withChildren kids) = isTableSection n := by
  cases n <;> rfl

theorem served_view {β : Type} {f : Node → β} (same : ∀ (h : CapabilityHandler) n, f (h.edit n) = f n)
    (removeStyle removeClass : Bool) (n : Node) : f (served removeStyle removeClass n) = f n := by
  have dressed : f (ensureCapabilities (mergeAttributes removeStyle removeClass n)) = f n :=
    (same .layout _).trans (same (.style removeStyle removeClass) n)
  unfold served
  split
  · dsimp only
    split
    · exact (same .media _).trans dressed
    · exact dressed
  · rfl

theorem marks?_edit (h : CapabilityHandler) (n : Node) : (h.edit n).marks? = n.marks? := by
  obtain ⟨f, same, _⟩ := edit_eq_mapHead h n
  rw [same]
  cases n <;> rfl

theorem hasSourceTag_served (removeStyle removeClass : Bool) (n : Node) (tag : String) :
    (served removeStyle removeClass n).hasSourceTag tag = n.hasSourceTag tag :=
  served_view (f := fun n => n.hasSourceTag tag) (fun h n => hasSourceTag_edit h n tag) removeStyle
    removeClass n

theorem everywhere_served_iff {β : Type} {f : Node → β} {P : Node → Prop} (removeStyle removeClass : Bool)
    (same : ∀ (h : CapabilityHandler) n, f (h.edit n) = f n)
    (view : ∀ n kids, f (n.withChildren kids) = f n)
    (refilled : ∀ n kids, kids.map f = n.children.map f →
      (P ((served removeStyle removeClass n).withChildren kids) ↔ P n))
    {n : Node} (done : (editAll (served removeStyle removeClass) n).2 = true) :
    Everywhere P (editAll (served removeStyle removeClass) n).1 ↔ Everywhere P n := by
  have kept := (shallow_served removeStyle removeClass).children
  refine everywhere_editWithin_iff (f := f) (fun n kids _ => ?_) (fun n kids seen => ?_) (fun n => ?_) done
  · exact (view _ kids).trans (served_view same removeStyle removeClass n)
  · exact refilled n kids (seen.trans (congrArg (List.map f) (kept n)))
  · show (∀ c ∈ (served removeStyle removeClass n).children, _) ↔ _
    rw [kept]
    rfl

theorem gated_served (removeStyle removeClass : Bool) {n : Node}
    (done : (editAll (served removeStyle removeClass) n).2 = true) :
    Everywhere (GatedAfter id Q) (editAll (served removeStyle removeClass) n).1 ↔
      Everywhere (GatedAfter id Q) n := by
  have kept := (shallow_served removeStyle removeClass).children
  refine everywhere_served_iff removeStyle removeClass marks?_edit marks?_withChildren
    (fun n kids same => gatedAfter_iff ?_ ?_) done
  · exact (hasSourceTag_withChildren _ kids _).trans (hasSourceTag_served _ _ n _)
  · rw [← kept n] at same
    exact (gated_withChildren same).trans (by rw [kept]; rfl)

theorem not_table_of_section {n : Node} (inner : isTableSection n = true) :
    n.hasSourceTag Tag.table = false := by
  rw [Bool.eq_false_iff]
  intro table
  simp [isTableSection, sourceTag_of_has table, Tag.isTableSection, Tag.table] at inner

theorem not_table_of_isItem {n : Node} (item : isItem n = true) : n.hasSourceTag Tag.table = false := by
  simp [Node.hasSourceTag, sourceTag_of_has item, Value.isText, Value.text?, Tag.listItem, Tag.table]

theorem not_section_of_isItem {n : Node} (item : isItem n = true) : isTableSection n = false := by
  simp [isTableSection, sourceTag_of_has item, Tag.isTableSection, Tag.listItem]

theorem flattenIn_eq (n : Node) : ∃ kids, flattenIn n = n.withChildren kids :=
  n.refilled_if (n.children.map unwrapped) _

theorem hasSourceTag_flattenIn (n : Node) (tag : String) :
    (flattenIn n).hasSourceTag tag = n.hasSourceTag tag := by
  obtain ⟨kids, same⟩ := flattenIn_eq n
  rw [same, hasSourceTag_withChildren]

theorem flattenIn_of_other {n : Node} (other : n.hasSourceTag Tag.table = false) : flattenIn n = n :=
  if_neg (Bool.eq_false_iff.mp other)

theorem children_flattenIn {n : Node} (table : n.hasSourceTag Tag.table = true) :
    (flattenIn n).children = n.children.map unwrapped := by
  rw [flattenIn, if_pos table]
  exact Reshaping.children_withChildren n _ (List.length_map _)

theorem everywhere_unwrapped_iff {P : Node → Prop}
    (sections : ∀ n only, isTableSection n = true → n.children = [only] → P n) (n : Node) :
    Everywhere P (unwrapped n) ↔ Everywhere P n := by
  unfold unwrapped
  split
  · rename_i inner
    split
    · rename_i only one
      have fine := sections n only inner one
      rw [Everywhere.iff_inside (a := n)]
      show _ ↔ _ ∧ ∀ c ∈ n.children, _
      simp [one, fine]
    · rfl
  · rfl

theorem everywhere_flattened_iff {β : Type} {f : Node → β} {P R : Node → Prop}
    (view : ∀ n kids, f (n.withChildren kids) = f n)
    (refilled : ∀ n kids, kids.map f = (flattenIn n).children.map f →
      (P ((flattenIn n).withChildren kids) ↔ R n))
    (sections : ∀ n only, isTableSection n = true → n.children = [only] → R n)
    {n : Node} (done : (editAll flattenIn n).2 = true) :
    Everywhere P (editAll flattenIn n).1 ↔ Everywhere R n := by
  refine everywhere_editWithin_iff (f := f) (fun n kids _ => ?_) refilled (fun n => ?_) done
  · obtain ⟨old, same⟩ := flattenIn_eq n
    rw [same]
    exact (view _ kids).trans (view n old)
  · show (∀ c ∈ (flattenIn n).children, _) ↔ ∀ c ∈ n.children, _
    cases table : n.hasSourceTag Tag.table with
    | false => rw [flattenIn_of_other table]
    | true =>
      rw [children_flattenIn table]
      simp only [List.forall_mem_map, everywhere_unwrapped_iff sections]

theorem gated_flattened {n : Node} (done : (editAll flattenIn n).2 = true) :
    Everywhere (GatedAfter id Q) (editAll flattenIn n).1 ↔ Everywhere (GatedAfter flattenIn Q) n := by
  refine everywhere_flattened_iff marks?_withChildren
    (fun n kids same => gatedAfter_iff ?_ (gated_withChildren same)) (fun n only inner one _ => ?_) done
  · exact (hasSourceTag_withChildren _ kids _).trans (hasSourceTag_flattenIn n _)
  · rw [flattenIn_of_other (not_table_of_section inner), one]
    exact .singleton _

-- The children that a table has once it is flattened are gated.
def SectionsApart (n : Node) : Prop :=
  n.hasSourceTag Tag.table = true → Gated (n.children.map unwrapped)

theorem gatedAfter_flattenIn {n : Node} (gated : Gated n.children) :
    GatedAfter flattenIn (fun _ => True) n ↔ SectionsApart n := by
  rw [GatedAfter, true_imp_iff, SectionsApart]
  cases table : n.hasSourceTag Tag.table with
  | false => simp [flattenIn_of_other table, gated]
  | true =>
    rw [children_flattenIn table]
    simp

-- What flattening reads of a child: its marks, and the marks of what it may give way to.
def bothMarks (n : Node) : Option Value × Option Value := (n.marks?, (unwrapped n).marks?)

theorem marks?_of_bothMarks {first second : List Node}
    (same : first.map bothMarks = second.map bothMarks) :
    first.map marks? = second.map marks? ∧
      (first.map unwrapped).map marks? = (second.map unwrapped).map marks? := by
  have own := congrArg (List.map Prod.fst) same
  have inner := congrArg (List.map Prod.snd) same
  rw [List.map_map, List.map_map] at own inner
  rw [List.map_map, List.map_map]
  exact ⟨own, inner⟩

theorem marks?_unwrapped {n : Node} {kids : List Node}
    (same : kids.map marks? = n.children.map marks?) :
    (unwrapped (n.withChildren kids)).marks? = (unwrapped n).marks? := by
  cases n with
  | element head children =>
    unfold unwrapped
    rw [isTableSection_withChildren]
    split
    · match kids, children, same with
      | [only], [other], same => exact (List.cons.inj same).1
      | [], [], _ => rfl
      | _ :: _ :: _, _ :: _ :: _, _ => rfl
      | [_], _ :: _ :: _, same => cases (List.cons.inj same).2
      | _ :: _ :: _, [_], same => cases (List.cons.inj same).2
    · rfl
  | _ => rfl

theorem bothMarks_withChildren {n : Node} {kids : List Node}
    (same : kids.map bothMarks = n.children.map bothMarks) :
    bothMarks (n.withChildren kids) = bothMarks n := by
  rw [bothMarks, bothMarks, marks?_withChildren, marks?_unwrapped (marks?_of_bothMarks same).1]

theorem gated_flattenIn {n : Node} {kids : List Node}
    (same : kids.map bothMarks = n.children.map bothMarks) :
    Gated (flattenIn (n.withChildren kids)).children ↔ Gated (flattenIn n).children := by
  obtain ⟨own, inner⟩ := marks?_of_bothMarks same
  unfold flattenIn
  rw [hasSourceTag_withChildren]
  split
  · cases n with
    | element head children => exact gated_congr inner
    | _ => rfl
  · exact gated_withChildren own

theorem unwrapped_of_other {n : Node} (other : isTableSection n = false) : unwrapped n = n :=
  if_neg (Bool.eq_false_iff.mp other)

theorem markListsIn_view {β : Type} {f : Node → β}
    (same : ∀ item, isItem item = true → ∀ marker, f (marked marker item) = f item) (n : Node) :
    ∃ kids, markListsIn n = n.withChildren kids ∧ kids.map f = n.children.map f := by
  unfold markListsIn
  split
  · refine ⟨_, rfl, ?_⟩
    generalize 0 = number
    generalize n.hasSourceTag Tag.orderedList = ordered
    generalize n.children = items
    fun_induction markItems ordered number items with
    | case1 => rfl
    | case2 number n rest item ih => rw [List.map_cons, List.map_cons, ih, same n item]
    | case3 number n rest other ih => rw [List.map_cons, List.map_cons, ih]
  · exact ⟨n.children, (Node.withChildren_children n).symm, rfl⟩

theorem markListsIn_refilled {β : Type} {f : Node → β}
    (same : ∀ item, isItem item = true → ∀ marker, f (marked marker item) = f item) {n : Node}
    {kids : List Node} (seen : kids.map f = (markListsIn n).children.map f) :
    (markListsIn n).withChildren kids = n.withChildren kids ∧ kids.map f = n.children.map f := by
  obtain ⟨old, turned, alike⟩ := markListsIn_view same n
  have long : old.length = n.children.length := by simpa using congrArg List.length alike
  have kept : (n.withChildren old).children = old := Reshaping.children_withChildren n old long
  rw [turned] at seen ⊢
  rw [kept, alike] at seen
  exact ⟨Node.withChildren_withChildren n old kids, seen⟩

theorem everywhere_listed_iff {β : Type} {f : Node → β} {P : Node → Prop}
    (same : ∀ item, isItem item = true → ∀ marker, f (marked marker item) = f item)
    (view : ∀ n kids, kids.map f = n.children.map f → f (n.withChildren kids) = f n)
    (refilled : ∀ n kids, kids.map f = n.children.map f → (P (n.withChildren kids) ↔ P n))
    (items : ∀ item, isItem item = true → ∀ marker,
      (Everywhere P (marked marker item) ↔ Everywhere P item))
    {n : Node} (done : (editAll markListsIn n).2 = true) :
    Everywhere P (editAll markListsIn n).1 ↔ Everywhere P n := by
  have turned : ∀ d c, Turns d c → (Everywhere P c ↔ Everywhere P d) := by
    intro d c turns
    unfold Turns at turns
    split at turns
    · rename_i item
      obtain ⟨marker, rfl⟩ := turns
      exact items d item marker
    · rw [turns]
  refine everywhere_editWithin_iff (f := f) (fun n kids seen => ?_) (fun n kids seen => ?_)
    (fun n => ?_) done
  · obtain ⟨refill, alike⟩ := markListsIn_refilled same seen
    exact (congrArg f refill).trans (view n kids alike)
  · obtain ⟨refill, alike⟩ := markListsIn_refilled same seen
    show P ((markListsIn n).withChildren kids) ↔ _
    rw [refill]
    exact refilled n kids alike
  · show (∀ c ∈ (markListsIn n).children, _) ↔ ∀ c ∈ n.children, _
    unfold markListsIn
    split
    · cases n with
      | element head children => exact forall_markItems fun d _ c turns => turned d c turns
      | _ => rfl
    · rfl

theorem bothMarks_marked {item : Node} (isItem : isItem item = true) (marker : String) :
    bothMarks (marked marker item) = bothMarks item := by
  obtain ⟨leaf, rest, same, _⟩ := marked_eq marker item
  have plain := not_section_of_isItem isItem
  have still : isTableSection (marked marker item) = false := by
    rw [same, isTableSection_withChildren, plain]
  rw [bothMarks, bothMarks, unwrapped_of_other plain, unwrapped_of_other still, same,
    marks?_withChildren]

theorem hasSourceTag_markListsIn (n : Node) (tag : String) :
    (markListsIn n).hasSourceTag tag = n.hasSourceTag tag := by
  obtain ⟨kids, same, _⟩ := markListsIn_view (f := bothMarks) (fun _ => bothMarks_marked) n
  rw [same, hasSourceTag_withChildren]

theorem gated_marked (marker : String) (item : Node) :
    Gated (marked marker item).children ↔ Gated item.children := by
  unfold marked
  split
  · rename_i leaf rest given
    exact gated_withChildren (by rw [given]; rfl)
  · rename_i other
    cases item with
    | element head children =>
      show Gated (_ :: children) ↔ Gated children
      rw [gated_cons]
      refine and_iff_right fun m next => ?_
      match children, next with
      | n :: rest, next =>
        have plain : ∀ leaf, n ≠ .text leaf := fun leaf same => other leaf rest (by rw [same]; rfl)
        rw [List.map_cons, marks?_of_other plain] at next
        cases next
        exact apart_of_none _
    | _ => rfl

theorem everywhere_marked {item : Node} (isItem : isItem item = true) (marker : String) :
    Everywhere (GatedAfter flattenIn Q) (marked marker item) ↔
      Everywhere (GatedAfter flattenIn Q) item := by
  have plain := not_table_of_isItem isItem
  have tag : (marked marker item).hasSourceTag Tag.table = item.hasSourceTag Tag.table := by
    obtain ⟨leaf, rest, same, _⟩ := marked_eq marker item
    rw [same, hasSourceTag_withChildren]
  have texts : ∀ leaf, Everywhere (GatedAfter flattenIn Q) (.text leaf) := fun leaf =>
    .of_childless rfl fun _ => .nil
  rw [Everywhere.iff_inside, Everywhere.iff_inside (a := item)]
  refine and_congr (gatedAfter_iff tag ?_) (forall_marked texts marker item)
  rw [flattenIn_of_other plain, flattenIn_of_other (tag.trans plain)]
  exact gated_marked marker item

theorem gated_listed {n : Node} (done : (editAll markListsIn n).2 = true) :
    Everywhere (GatedAfter flattenIn Q) (editAll markListsIn n).1 ↔
      Everywhere (GatedAfter flattenIn Q) n :=
  everywhere_listed_iff (fun _ => bothMarks_marked) (fun _ _ => bothMarks_withChildren)
    (fun n kids same => gatedAfter_iff (hasSourceTag_withChildren n kids _) (gated_flattenIn same))
    (fun _ => everywhere_marked) done

end Passes

namespace Transformer
variable {ε σ : Type} {t : Transformer ε σ}

theorem grown_of_delivered (unchanged : t.plugins = builtin) {a : Ast} {source : String} {shared : σ}
    {nodes : List Node} (fine : (t.complete.exec (t.start a source shared)).1 = .ok nodes) :
    ∃ root, t.grown source (t.converted a) = .ok root ∧ nodes = resultOf root := by
  have inside : Within maxDepth a := by
    rw [complete_eq t unchanged] at fine
    obtain ⟨_, passed, _⟩ := ok_of_bind fine
    obtain ⟨_, flagged, _⟩ := ok_of_bind passed
    obtain ⟨_, normal, _⟩ := ok_of_map flagged
    have kept : ∀ a : Ast, Branching.children (flagAst a) = Branching.children a := fun a => rfl
    exact within_of_edited kept (Walk.finished_ok_iff.mp normal).1
  rw [complete_of_within t unchanged inside] at fine
  obtain ⟨root, grown, delivered⟩ := ok_of_bind fine
  obtain ⟨_, _, checked⟩ := ok_of_bind delivered
  exact ⟨root, grown, result_of_checked checked⟩

theorem hasSourceTag_editAll {edit : Node → Node} {tag : String}
    (kept : ∀ n, (edit n).hasSourceTag tag = n.hasSourceTag tag) (n : Node) :
    (editAll edit n).1.hasSourceTag tag = n.hasSourceTag tag :=
  editWithin_view (f := fun n => n.hasSourceTag tag)
    (fun n kids _ => (hasSourceTag_withChildren (edit n) kids tag).trans (kept n)) (maxDepth + 1) n

theorem grown_edits {source : String} {n root : Node} (grown : t.grown source n = .ok root) :
    let merged := editAll mergeChildren n
    let listed := editAll markListsIn merged.1
    let flat := editAll flattenIn listed.1
    let dressed :=
      editAll (served t.options.removeAllStyle.isTrue t.options.removeAllClass.isTrue) flat.1
    merged.2 = true ∧ listed.2 = true ∧ flat.2 = true ∧ dressed.2 = true ∧ root = dressed.1 := by
  obtain ⟨merged, first, marking⟩ := ok_of_bind grown
  obtain ⟨listed, second, flattening⟩ := ok_of_bind marking
  obtain ⟨flat, third, serving⟩ := ok_of_bind flattening
  obtain ⟨joined, rfl⟩ := Walk.finished_ok_iff.mp first
  obtain ⟨marked, rfl⟩ := Walk.finished_ok_iff.mp second
  obtain ⟨flattened, rfl⟩ := Walk.finished_ok_iff.mp third
  obtain ⟨dressed, rfl⟩ := Walk.finished_ok_iff.mp (ok_of_mapError serving)
  exact ⟨joined, marked, flattened, dressed, rfl⟩

theorem grown_gated {source : String} {n root : Node} (grown : t.grown source n = .ok root) :
    (∀ tag, root.hasSourceTag tag = n.hasSourceTag tag) ∧ (mergeAll n).2 = true ∧
      ∀ Q : Bool → Prop,
        Everywhere (GatedAfter id Q) root ↔ Everywhere (GatedAfter flattenIn Q) (mergeAll n).1 := by
  obtain ⟨joined, marked, flattened, dressed, rfl⟩ := grown_edits grown
  refine ⟨fun tag => ?_, joined, fun Q => ?_⟩
  · have merging : ∀ n : Node, n.mergeChildren.hasSourceTag tag = n.hasSourceTag tag :=
      fun n => hasSourceTag_withChildren n _ tag
    rw [hasSourceTag_editAll fun n => hasSourceTag_served _ _ n tag,
      hasSourceTag_editAll fun n => hasSourceTag_flattenIn n tag,
      hasSourceTag_editAll fun n => hasSourceTag_markListsIn n tag, hasSourceTag_editAll merging]
  · rw [gated_served _ _ dressed, gated_flattened flattened, gated_listed marked]
    rfl

theorem gated_resultOf {root : Node} {P : Node → Prop} (top : P root ↔ Gated root.children) :
    (Gated (resultOf root) ∧ ∀ n ∈ resultOf root, Everywhere P n) ↔ Everywhere P root := by
  unfold resultOf
  split
  · rw [Everywhere.iff_inside, top]
    rfl
  · exact ⟨fun ⟨_, all⟩ => all root List.mem_cons_self, fun all =>
      ⟨.singleton _, fun n member => by rwa [List.mem_singleton.mp member]⟩⟩

theorem gated_elsewhere (unchanged : t.plugins = builtin) {a : Ast} {source : String} {shared : σ}
    {nodes : List Node} (fine : (t.complete.exec (t.start a source shared)).1 = .ok nodes) :
    Gated nodes ∧
      ∀ n ∈ nodes, Everywhere (fun n => n.hasSourceTag Tag.table = false → Gated n.children) n := by
  obtain ⟨root, grown, rfl⟩ := grown_of_delivered unchanged fine
  obtain ⟨origin, joined, asked⟩ := grown_gated grown
  have plain : root.hasSourceTag Tag.table = false := origin Tag.table
  refine (gated_resultOf (by simp [plain])).mpr ((asked (· = false)).mpr ?_)
  exact (gated_mergeAll joined).imp fun n gated other => by rwa [flattenIn_of_other other]

theorem gated_iff_apart (unchanged : t.plugins = builtin) {a : Ast} {source : String} {shared : σ}
    {nodes : List Node} (fine : (t.complete.exec (t.start a source shared)).1 = .ok nodes) :
    (Gated nodes ∧ ∀ n ∈ nodes, Everywhere (fun n => Gated n.children) n) ↔
      Everywhere SectionsApart (mergeAll (t.converted a)).1 := by
  obtain ⟨root, grown, rfl⟩ := grown_of_delivered unchanged fine
  obtain ⟨_, joined, asked⟩ := grown_gated grown
  have every : GatedAfter id (fun _ => True) = fun n => Gated n.children := by
    funext n
    simp [GatedAfter]
  rw [gated_resultOf Iff.rfl, ← every, asked]
  exact (gated_mergeAll joined).congr fun n => gatedAfter_flattenIn

-- Of the nodes that a transform gives, no two neighbours are texts of equal marks, unless they are
-- children of a table: flattening puts the texts of its sections side by side, and nothing merges
-- them again. All are gated just when flattening finds no such sections.
theorem nodes_gated (t : Transformer ε σ) (unchanged : t.plugins = builtin) {a : Ast} (source : String)
    (shared : σ) {nodes : List Node}
    (fine : (t.complete.exec (t.start a source shared)).1 = .ok nodes) :
    (Gated nodes ∧
        ∀ n ∈ nodes, Everywhere (fun n => n.hasSourceTag Tag.table = false → Gated n.children) n) ∧
      ((Gated nodes ∧ ∀ n ∈ nodes, Everywhere (fun n => Gated n.children) n) ↔
        Everywhere SectionsApart (mergeAll (t.converted a)).1) :=
  ⟨gated_elsewhere unchanged fine, gated_iff_apart unchanged fine⟩

def twoSections (bold : Bool) : Ast :=
  let letter : Ast := .node (.text "b") []
  .node .root [.node (.tag "table" []) [
    .node (.tag "thead" []) [.node (.text "a") []],
    .node (.tag "tbody" []) [if bold then .node (.tag "b" []) [letter] else letter]]]

theorem twoSections_converted (bold : Bool) :
    ∃ root table thead tbody first second,
      usual.converted (twoSections bold) = .element root [.element table [
        .element thead [.text first], .element tbody [.text second]]] ∧
      (mergeAll (usual.converted (twoSections bold))).1 = usual.converted (twoSections bold) ∧
      (.element table [] : Node).hasSourceTag Tag.table = true ∧
      unwrapped (.element thead [.text first]) = .text first ∧
      unwrapped (.element tbody [.text second]) = .text second ∧
      first.marks = .null ∧ second.marks = if bold then .record [("bold", .flag true)] else .null := by
  cases bold
  · exact ⟨_, _, _, _, _, _, rfl, rfl, rfl, rfl, rfl, rfl, rfl⟩
  · exact ⟨_, _, _, _, _, _, rfl, rfl, rfl, rfl, rfl, rfl, rfl⟩

theorem twoSections_delivered (bold : Bool) :
    ∃ nodes, (usual.complete.exec (usual.start (twoSections bold) "" ())).1 = .ok nodes := by
  have inside : Within 5 (twoSections bold) := by
    cases bold <;> simp [twoSections, Within, Branching.children, Ast.children]
  obtain ⟨root, table, thead, tbody, first, second, same, _⟩ := twoSections_converted bold
  have above : Within 5 (usual.converted (twoSections bold)) := by
    simp [same, Within, Branching.children, Node.children]
  refine complete_ok usual_plugins rfl (inside.mono (by decide)) (fun item => ?_) "" ()
  have low : maxDepth ≤ 5 := itemAt_le above item
  exact absurd low (by decide)

theorem twoSections_apart (bold : Bool) :
    Everywhere SectionsApart (mergeAll (usual.converted (twoSections bold))).1 ↔ bold = true := by
  obtain ⟨root, table, thead, tbody, first, second, same, still, tag, one, other, plain, marks⟩ :=
    twoSections_converted bold
  have pair : Gated [.text first, .text second] ↔ bold = true := by
    cases bold <;> simp [Gated, marks?, Apart, plain, marks, Marks.same, Value.orElse, Value.isTrue,
      Value.same, Value.sameFields]
  have flat : SectionsApart (.element table [.element thead [.text first],
      .element tbody [.text second]]) ↔ Gated [.text first, .text second] := by
    unfold SectionsApart
    rw [Node.children, List.map_cons, List.map_cons, List.map_nil, one, other]
    exact ⟨fun gated => gated tag, fun gated _ => gated⟩
  have alone : ∀ head n, SectionsApart (.element head [n]) := fun _ _ _ => .singleton _
  have texts : ∀ leaf, Everywhere SectionsApart (.text leaf) :=
    fun leaf => .of_childless rfl fun _ => .nil
  rw [still, same]
  simp [everywhere_element, alone, texts, flat, pair]

theorem twoSections_gated :
    usual.plugins = builtin ∧
      ∃ nodes, (usual.complete.exec (usual.start (twoSections true) "" ())).1 = .ok nodes ∧
        Gated nodes ∧ ∀ n ∈ nodes, Everywhere (fun n => Gated n.children) n := by
  obtain ⟨nodes, fine⟩ := twoSections_delivered true
  have whole := (nodes_gated usual usual_plugins "" () fine).2
  exact ⟨usual_plugins, nodes, fine, whole.mpr ((twoSections_apart true).mpr rfl)⟩

theorem twoSections_ungated :
    usual.plugins = builtin ∧ (twoSections false).head.kind = .root ∧
      ∃ nodes, (usual.complete.exec (usual.start (twoSections false) "" ())).1 = .ok nodes ∧
        ¬(Gated nodes ∧ ∀ n ∈ nodes, Everywhere (fun n => Gated n.children) n) := by
  obtain ⟨nodes, fine⟩ := twoSections_delivered false
  refine ⟨usual_plugins, rfl, nodes, fine, fun gated => ?_⟩
  have flat := (gated_iff_apart usual_plugins fine).mp gated
  cases (twoSections_apart false).mp flat

end Transformer
end SemanticMarkup
