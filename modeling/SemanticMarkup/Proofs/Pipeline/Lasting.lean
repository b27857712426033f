import SemanticMarkup.Proofs.Conversion.Conservation
import SemanticMarkup.Proofs.Pipeline.Stages

namespace SemanticMarkup
open Walk Passes

-- A property of nodes that the structuring passes cannot take away: an element keeps it with other
-- children, unless it had none and is no item, and so do joined texts and the markers of items.
structure Lasting (P : Node → Prop) : Prop where
  filled : ∀ {head children kids}, P (.element head children) →
    (children = [] → isItem (.element head []) = false → kids = []) → P (.element head kids)
  joined : ∀ {r : OpenRun} {leaf : TextLeaf}, P (.text r.leaf) → P (.text leaf) →
    P (.text (r.join leaf).leaf)
  marker : ∀ {item : Node} {leaf : TextLeaf} {rest : List Node}, Marked item leaf rest →
    (∀ first, .text first ∈ item.children → P (.text first)) → P (.text leaf)

theorem Passes.unwrapped_cases (n : Node) : unwrapped n = n ∨ unwrapped n ∈ n.children := by
  unfold unwrapped
  split
  · split
    · rename_i only one
      exact .inr (by simp [one])
    · exact .inl rfl
  · exact .inl rfl

theorem Passes.everywhere_unwrapped {P : Node → Prop} {n : Node} (all : Everywhere P n) :
    Everywhere P (unwrapped n) := by
  rcases unwrapped_cases n with same | inner
  · rwa [same]
  · exact all.inside _ inner

theorem Passes.flattenIn_inside {P : Node → Prop} {n : Node} (inside : ∀ c ∈ n.children, Everywhere P c) :
    ∀ c ∈ (Passes.flattenIn n).children, Everywhere P c := by
  unfold Passes.flattenIn
  split
  · have kept : (flattenTable n).children = n.children.map unwrapped :=
      Reshaping.children_withChildren n _ (List.length_map _)
    intro c member
    rw [kept] at member
    obtain ⟨d, old, rfl⟩ := List.mem_map.mp member
    exact everywhere_unwrapped (inside d old)
  · exact inside

namespace Lasting
variable {P : Node → Prop} (lasting : Lasting P)
include lasting

theorem merged {nodes : List Node} (all : ∀ c ∈ nodes, Everywhere P c) :
    ∀ c ∈ Node.merged nodes, Everywhere P c := by
  have texts : ∀ leaf, .text leaf ∈ Node.merged nodes → P (.text leaf) :=
    Node.mergeFrom_texts (Q := fun leaf => P (.text leaf))
      (fun r leaf old new _ => lasting.joined old new) (by simp)
      fun leaf member => (all _ member).here
  intro c member
  rcases c.text_or_other with ⟨leaf, rfl⟩ | other
  · exact .of_childless rfl (texts leaf member)
  · rcases Node.mem_mergeFrom member with ⟨leaf, text⟩ | old
    · exact absurd text (other leaf)
    · exact all c old

theorem mergeChildren (n : Node) (all : Everywhere P n) : Everywhere P n.mergeChildren := by
  cases n with
  | element head children =>
    refine everywhere_element.mpr ⟨lasting.filled all.here fun none _ => ?_, lasting.merged all.inside⟩
    rw [none]
    rfl
  | _ => exact all

theorem marked (number : String) {item : Node} (isItem : isItem item = true)
    (all : Everywhere P item) : Everywhere P (Passes.marked number item) := by
  obtain ⟨leaf, rest, same, part⟩ := marked_eq number item
  rw [same]
  cases item with
  | element head children =>
    have text : P (.text leaf) := lasting.marker part fun first member => (all.inside _ member).here
    refine everywhere_element.mpr ⟨lasting.filled all.here fun _ other => ?_, fun c member => ?_⟩
    · have item : Passes.isItem (.element head []) = true := isItem
      rw [item] at other
      cases other
    · rcases List.mem_cons.mp member with rfl | later
      · exact .of_childless rfl text
      · exact all.inside c (part.old c later)
  | _ => exact all

theorem withChildren {n : Node} {kids : List Node} (here : P n)
    (long : kids.length = n.children.length) : P (n.withChildren kids) := by
  cases n with
  | element head children =>
    refine lasting.filled here fun none _ => List.eq_nil_of_length_eq_zero ?_
    rw [long, Node.children, none, List.length_nil]
  | _ => exact here

theorem mergeChildren_inside {n : Node} (inside : ∀ c ∈ n.children, Everywhere P c) :
    ∀ c ∈ n.mergeChildren.children, Everywhere P c := by
  cases n with
  | element head children => exact lasting.merged inside
  | _ => exact inside

theorem markListsIn_inside {n : Node} (inside : ∀ c ∈ n.children, Everywhere P c) :
    ∀ c ∈ (Passes.markListsIn n).children, Everywhere P c := by
  unfold Passes.markListsIn
  split
  · have turned := markItems_turns (n.hasSourceTag Tag.orderedList) 0 n.children
    have kept : (markList n).children = markItems (n.hasSourceTag Tag.orderedList) 0 n.children :=
      Reshaping.children_withChildren n _ turned.length_eq.symm
    intro c member
    rw [kept] at member
    obtain ⟨d, old, turns⟩ := exists_related turned member
    rw [Turns] at turns
    split at turns
    · rename_i item
      obtain ⟨number, rfl⟩ := turns
      exact lasting.marked number item (inside d old)
    · rw [turns]
      exact inside d old
  · exact inside

theorem markListsIn (n : Node) (all : Everywhere P n) : Everywhere P (Passes.markListsIn n) := by
  refine .intro ?_ (lasting.markListsIn_inside all.inside)
  unfold Passes.markListsIn
  split
  · have turned := markItems_turns (n.hasSourceTag Tag.orderedList) 0 n.children
    exact lasting.withChildren all.here turned.length_eq.symm
  · exact all.here

theorem flattenIn (n : Node) (all : Everywhere P n) : Everywhere P (Passes.flattenIn n) := by
  refine .intro ?_ (flattenIn_inside all.inside)
  unfold Passes.flattenIn
  split
  · exact lasting.withChildren all.here (List.length_map _)
  · exact all.here

theorem edited {edit : Node → Node} (keeps : ∀ n, Everywhere P n → Everywhere P (edit n)) {n : Node}
    (all : Everywhere P n) : Everywhere P (editAll edit n).1 :=
  editWithin_everywhere keeps (fun _ _ => lasting.withChildren) (maxDepth + 1) all

theorem edited_inside {edit : Node → Node} (keeps : ∀ n, Everywhere P n → Everywhere P (edit n))
    (below : ∀ n : Node, (∀ c ∈ n.children, Everywhere P c) → ∀ c ∈ (edit n).children, Everywhere P c)
    {n : Node} (inside : ∀ c ∈ n.children, Everywhere P c) :
    ∀ c ∈ (editAll edit n).1.children, Everywhere P c := by
  have fresh := below n inside
  have long := editList_length (editWithin edit maxDepth) (edit n).children
  have same : (editAll edit n).1.children = (editList (editWithin edit maxDepth) (edit n).children).1 :=
    Reshaping.children_withChildren (edit n) _ long
  rw [same]
  exact editList_forall fresh fun c member =>
    editWithin_everywhere keeps (fun _ _ => lasting.withChildren) maxDepth (fresh c member)

end Lasting

namespace Passes

def Meaning.isTagged : Meaning → Bool
  | .formatting _ _ | .void _ | .element _ => true
  | _ => false

theorem tagged_reads {h : AstHead} {sense : Meaning} (same : meaning h = sense)
    (tagged : sense.isTagged = true) : Reads h.tagName sense := by
  subst same
  unfold meaning at tagged ⊢
  cases kind : h.kind with
  | tag => exact ofTag_reads h.tagName
  | text =>
    simp only [kind] at tagged
    split at tagged <;> cases tagged
  | _ =>
    simp only [kind] at tagged
    cases tagged

-- What the head of a converted element stands for: the wrapper of a formatting tag, or a tag with
-- the target of its mapping.
inductive Converted (mode : StyleMode) : ElementHead → Bool → Prop where
  | wrapper {h : AstHead} {m : TagMapping} {mark : String}
    (mapped : Tag.mapping? h.tagName = some m)
    (formats : Table.get? Tag.formatting h.tagName = some mark) :
    Converted mode (head mode h m "text") m.isVoid
  | target {h : AstHead} {m : TagMapping} (mapped : Tag.mapping? h.tagName = some m)
    (plain : Table.get? Tag.formatting h.tagName = none) :
    Converted mode (head mode h m m.target) m.isVoid

theorem hasSourceTag_head (mode : StyleMode) (h : AstHead) (m : TagMapping) (target : String)
    (kids : List Node) (tag : String) :
    (Node.element (head mode h m target) kids).hasSourceTag tag = (h.tagName == tag) := by
  simp [Node.hasSourceTag, Node.sourceTag, Node.annotations, Node.rawAnnotations, head,
    Value.record?, Table.getD, Table.get?_cons, Value.isText, Value.text?, Node.isElement, Node.kind]

-- What holds of all texts and elements that conversion makes holds everywhere in what it gives, if
-- merging keeps it. What is handed down has to allow for the texts. Elements may go by what is known
-- of the heads of the markup, and no wrapper is there for what is bare.
theorem everywhere_converted_from {P : Node → Prop} {J : Inherited → Prop} {K : AstHead → Prop}
    (mode : StyleMode)
    (merges : ∀ nodes, (∀ c ∈ nodes, Everywhere P c) → ∀ c ∈ Node.merged nodes, Everywhere P c)
    (texts : ∀ i, J i → ∀ content source, P (.text (i.leaf content source)))
    (marked : ∀ i name mark, J i → Table.get? Tag.formatting name = some mark → J (i.withMark mark))
    (within : ∀ i tag m, J i → J (i.within mode tag m))
    (wrappers : ∀ h m mark inside, K h → Tag.mapping? h.tagName = some m →
      Table.get? Tag.formatting h.tagName = some mark → ¬Bare (Node.merged inside) →
      P (.element (head mode h m "text") (Node.merged inside)))
    (targets : ∀ h m kids, K h → Tag.mapping? h.tagName = some m →
      Table.get? Tag.formatting h.tagName = none → (m.isVoid = true → kids = []) →
      P (.element (head mode h m m.target) kids))
    {a : Ast} (heads : Everywhere (fun c : Ast => K c.head) a) (i : Inherited) (allows : J i) :
    ∀ n ∈ becomes mode i a, Everywhere P n := by
  induction a using Ast.induct generalizing i with
  | node h children ih =>
    have known : K h := heads.here
    have inside : ∀ j, J j → ∀ n ∈ becomesAll mode j children, Everywhere P n := by
      intro j allowed n member
      obtain ⟨c, among, old⟩ := mem_becomesAll.mp member
      exact ih c among (heads.inside c among) j allowed n old
    have text : ∀ content source, Everywhere P (.text (i.leaf content source)) :=
      fun content source => .of_childless rfl (texts i allows content source)
    rw [becomes_node]
    cases sense : meaning h with
    | nothing => simp
    | words data => simpa using text data "text"
    | group => exact inside i allows
    | lineBreak => simpa using text "\n" "br"
    | formatting mark m =>
      cases tagged_reads sense rfl with
      | formatting mapped whole formats =>
        have merged := merges _ (inside _ (marked i h.tagName mark allows formats))
        dsimp only
        rcases formatted_forms mode h m (becomesAll mode (i.withMark mark) children) with
          ⟨plain, _⟩ | ⟨wrapped, full⟩
        · rw [plain]
          exact merged
        · rw [wrapped]
          intro n member
          rw [List.mem_singleton] at member
          subst member
          exact everywhere_element.mpr ⟨wrappers h m mark _ known mapped formats full, merged⟩
    | void m =>
      cases tagged_reads sense rfl with
      | void mapped whole plain void =>
        intro n member
        rw [List.mem_singleton] at member
        subst member
        exact .of_childless rfl (targets h m [] known mapped plain fun _ => rfl)
    | element m =>
      cases tagged_reads sense rfl with
      | element mapped whole plain holds =>
        intro n member
        rw [List.mem_singleton] at member
        subst member
        refine everywhere_element.mpr ⟨targets h m _ known mapped plain fun void => ?_,
          inside _ (within i h.tagName m allows)⟩
        rw [holds] at void
        cases void

theorem everywhere_converted {P : Node → Prop} {J : Inherited → Prop} (mode : StyleMode)
    (merges : ∀ nodes, (∀ c ∈ nodes, Everywhere P c) → ∀ c ∈ Node.merged nodes, Everywhere P c)
    (texts : ∀ i, J i → ∀ content source, P (.text (i.leaf content source)))
    (marked : ∀ i name mark, J i → Table.get? Tag.formatting name = some mark → J (i.withMark mark))
    (within : ∀ i tag m, J i → J (i.within mode tag m))
    (wrappers : ∀ h m mark inside, Tag.mapping? h.tagName = some m →
      Table.get? Tag.formatting h.tagName = some mark → ¬Bare (Node.merged inside) →
      P (.element (head mode h m "text") (Node.merged inside)))
    (targets : ∀ h m kids, Tag.mapping? h.tagName = some m →
      Table.get? Tag.formatting h.tagName = none → (m.isVoid = true → kids = []) →
      P (.element (head mode h m m.target) kids))
    (a : Ast) (i : Inherited) (allows : J i) : ∀ n ∈ becomes mode i a, Everywhere P n :=
  everywhere_converted_from (K := fun _ => True) mode merges texts marked within
    (fun h m mark inside _ => wrappers h m mark inside) (fun h m kids _ => targets h m kids)
    (everywhere_of_each (fun _ => trivial) a) i allows

theorem everywhere_becomes {P : Node → Prop} (lasting : Lasting P) {J : Inherited → Prop}
    (mode : StyleMode)
    (texts : ∀ i, J i → ∀ content source, P (.text (i.leaf content source)))
    (marked : ∀ i name mark, J i → Table.get? Tag.formatting name = some mark → J (i.withMark mark))
    (within : ∀ i tag m, J i → J (i.within mode tag m))
    (elements : ∀ head void kids, Converted mode head void → (void = true → kids = []) →
      P (.element head kids))
    (a : Ast) (i : Inherited) (allows : J i) : ∀ n ∈ becomes mode i a, Everywhere P n := by
  refine everywhere_converted mode (fun _ => lasting.merged) texts marked within
    (fun h m mark inside mapped formats _ => ?_) (fun h m kids mapped plain holds => ?_) a i allows
  · refine elements _ _ _ (.wrapper mapped formats) fun void => ?_
    rw [formatting_holds formats mapped] at void
    cases void
  · exact elements _ _ _ (.target mapped plain) holds

end Passes
end SemanticMarkup
