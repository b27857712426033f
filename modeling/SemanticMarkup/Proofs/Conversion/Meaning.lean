import SemanticMarkup.Proofs.Merge.Runs
import SemanticMarkup.Proofs.Results
import SemanticMarkup.Passes.Structure

namespace SemanticMarkup.Passes
open Walk

inductive Meaning where
  | nothing
  | words (data : String)
  | group
  | lineBreak
  | formatting (mark : String) (m : TagMapping)
  | void (m : TagMapping)
  | element (m : TagMapping)

def Meaning.ofTag (name : String) : Meaning :=
  match Tag.mapping? name with
  | none => .nothing
  | some m =>
    if m.isLineBreak then .lineBreak
    else
      match Table.get? Tag.formatting name with
      | some mark => .formatting mark m
      | none => if m.isVoid then .void m else .element m

-- What the tables of tags say about a name, for each of its possible meanings.
inductive Reads (name : String) : Meaning → Prop where
  | unmapped (mapped : Tag.mapping? name = none) : Reads name .nothing
  | lineBreak {m : TagMapping} (mapped : Tag.mapping? name = some m) (breaks : m.isLineBreak = true) :
    Reads name .lineBreak
  | formatting {m : TagMapping} {mark : String} (mapped : Tag.mapping? name = some m)
    (whole : m.isLineBreak = false) (formats : Table.get? Tag.formatting name = some mark) :
    Reads name (.formatting mark m)
  | void {m : TagMapping} (mapped : Tag.mapping? name = some m) (whole : m.isLineBreak = false)
    (plain : Table.get? Tag.formatting name = none) (void : m.isVoid = true) : Reads name (.void m)
  | element {m : TagMapping} (mapped : Tag.mapping? name = some m) (whole : m.isLineBreak = false)
    (plain : Table.get? Tag.formatting name = none) (holds : m.isVoid = false) :
    Reads name (.element m)

theorem ofTag_reads (name : String) : Reads name (.ofTag name) := by
  unfold Meaning.ofTag
  cases mapped : Tag.mapping? name with
  | none => exact .unmapped mapped
  | some m =>
    cases breaks : m.isLineBreak with
    | true => simpa [breaks] using Reads.lineBreak mapped breaks
    | false =>
      cases formats : Table.get? Tag.formatting name with
      | some mark => simpa [breaks] using Reads.formatting mapped breaks formats
      | none =>
        cases void : m.isVoid with
        | true => simpa [breaks, void] using Reads.void mapped breaks formats void
        | false => simpa [breaks, void] using Reads.element mapped breaks formats void

def meaning (h : AstHead) : Meaning :=
  match h.kind with
  | .text => if h.blank || Text.isAllBlank h.dataText then .nothing else .words h.dataText
  | .root => .group
  | .tag => .ofTag h.tagName
  | _ => .nothing

theorem meaning_of_text {h : AstHead} (text : h.isText = true) :
    meaning h = if h.blank || Text.isAllBlank h.dataText then .nothing else .words h.dataText := by
  unfold AstHead.isText at text
  unfold meaning
  cases kind : h.kind with
  | text => rfl
  | _ =>
    simp only [kind] at text
    cases text

theorem convert_node (mode : StyleMode) (i : Inherited) {depth : Nat} (le : depth ≤ maxDepth)
    (h : AstHead) (children : List Ast) :
    convert mode i depth (.node h children) =
      match meaning h with
      | .nothing => .ok []
      | .words data => .ok [.text (i.leaf data "text")]
      | .group => convertAll mode i (depth + 1) children
      | .lineBreak => .ok [.text (i.leaf "\n" "br")]
      | .formatting mark m =>
        (convertAll mode (i.withMark mark) (depth + 1) children).map (formatted mode h m)
      | .void m => .ok [.element (head mode h m m.target) []]
      | .element m =>
        (convertAll mode (i.within mode h.tagName m) (depth + 1) children).map fun inside =>
          [.element (head mode h m m.target) inside] := by
  rw [convert, if_neg (by omega)]
  unfold meaning
  cases h.kind with
  | text =>
    simp only
    split <;> rfl
  | tag =>
    simp only [Meaning.ofTag]
    cases Tag.mapping? h.tagName with
    | none => rfl
    | some m =>
      simp only
      split
      · rfl
      · cases Table.get? Tag.formatting h.tagName with
        | some mark => rfl
        | none =>
          simp only
          split <;> rfl
  | _ => rfl

mutual

-- The semantic nodes of a markup node, when nothing lies too deep.
def becomes (mode : StyleMode) (i : Inherited) : Ast → List Node
  | .node h children =>
    match meaning h with
    | .nothing => []
    | .words data => [.text (i.leaf data "text")]
    | .group => becomesAll mode i children
    | .lineBreak => [.text (i.leaf "\n" "br")]
    | .formatting mark m => formatted mode h m (becomesAll mode (i.withMark mark) children)
    | .void m => [.element (head mode h m m.target) []]
    | .element m =>
      [.element (head mode h m m.target) (becomesAll mode (i.within mode h.tagName m) children)]

def becomesAll (mode : StyleMode) (i : Inherited) : List Ast → List Node
  | [] => []
  | a :: rest => becomes mode i a ++ becomesAll mode i rest

end

theorem becomes_node (mode : StyleMode) (i : Inherited) (h : AstHead) (children : List Ast) :
    becomes mode i (.node h children) =
      match meaning h with
      | .nothing => []
      | .words data => [.text (i.leaf data "text")]
      | .group => becomesAll mode i children
      | .lineBreak => [.text (i.leaf "\n" "br")]
      | .formatting mark m => formatted mode h m (becomesAll mode (i.withMark mark) children)
      | .void m => [.element (head mode h m m.target) []]
      | .element m =>
        [.element (head mode h m m.target) (becomesAll mode (i.within mode h.tagName m) children)] := by
  rw [becomes]

-- At most one node, and that needs no wrapper.
def Bare (nodes : List Node) : Prop := ∀ n ∈ nodes, nodes = [n] ∧ needsWrapper n = false

theorem formatted_forms (mode : StyleMode) (h : AstHead) (m : TagMapping) (inside : List Node) :
    (formatted mode h m inside = Node.merged inside ∧ Bare (Node.merged inside)) ∨
      (formatted mode h m inside = [.element (head mode h m "text") (Node.merged inside)] ∧
        ¬Bare (Node.merged inside)) := by
  unfold formatted
  split
  · rename_i none
    exact .inl ⟨none.symm, by simp [none, Bare]⟩
  · rename_i only one
    rw [one]
    split
    · rename_i needs
      exact .inr ⟨rfl, by simp [Bare, needs]⟩
    · rename_i alone
      exact .inl ⟨rfl, by simpa [Bare] using alone⟩
  · rename_i empty several
    refine .inr ⟨rfl, fun bare => ?_⟩
    obtain ⟨n, member⟩ := List.exists_mem_of_ne_nil _ empty
    exact several n (bare n member).1

theorem formatted_cases (mode : StyleMode) (h : AstHead) (m : TagMapping) (inside : List Node) :
    formatted mode h m inside = Node.merged inside ∨
      formatted mode h m inside = [.element (head mode h m "text") (Node.merged inside)] :=
  (formatted_forms mode h m inside).imp And.left And.left

theorem element_within {depth : Nat} {inside : List Node} (head : ElementHead)
    (deep : ∀ n ∈ inside, Within (maxDepth - (depth + 1)) n)
    (room : inside ≠ [] → depth + 1 ≤ maxDepth) :
    Within (maxDepth - depth) (Node.element head inside) := by
  cases inside with
  | nil => exact Within.of_childless rfl _
  | cons first rest =>
    have lower := room (by simp)
    rw [show maxDepth - depth = maxDepth - (depth + 1) + 1 by omega]
    exact deep

theorem formatted_within {depth : Nat} {inside : List Node} (mode : StyleMode) (h : AstHead)
    (m : TagMapping) (deep : ∀ n ∈ inside, Within (maxDepth - (depth + 1)) n)
    (room : inside ≠ [] → depth + 1 ≤ maxDepth) :
    ∀ n ∈ formatted mode h m inside, Within (maxDepth - depth) n := by
  have merged := Node.merged_within deep
  intro n member
  rcases formatted_cases mode h m inside with plain | wrapped
  · rw [plain] at member
    exact (merged n member).mono (by omega)
  · rw [wrapped, List.mem_singleton] at member
    subst member
    refine element_within _ merged fun some => room ?_
    rintro rfl
    exact some rfl

theorem convert_le {mode : StyleMode} {a : Ast} {i : Inherited} {depth : Nat} {nodes : List Node}
    (converted : convert mode i depth a = .ok nodes) : depth ≤ maxDepth := by
  cases a with
  | node h children =>
    rw [convert] at converted
    split at converted
    · cases converted
    · omega

theorem convertAll_ok {mode : StyleMode} {i : Inherited} {depth : Nat} {P : Node → Prop}
    {trees : List Ast} {inside : List Node}
    (each : ∀ c ∈ trees, ∀ nodes, convert mode i depth c = .ok nodes →
      nodes = becomes mode i c ∧ ∀ n ∈ nodes, P n)
    (converted : convertAll mode i depth trees = .ok inside) :
    inside = becomesAll mode i trees ∧ ∀ n ∈ inside, P n := by
  induction trees generalizing inside with
  | nil =>
    rw [convertAll] at converted
    cases converted
    exact ⟨by rw [becomesAll], by simp⟩
  | cons c rest ih =>
    rw [convertAll] at converted
    cases first : convert mode i depth c with
    | error f =>
      rw [first] at converted
      cases converted
    | ok nodes =>
      cases others : convertAll mode i depth rest with
      | error f =>
        rw [first, others] at converted
        cases converted
      | ok more =>
        rw [first, others] at converted
        cases converted
        obtain ⟨same, good⟩ := each c (by simp) nodes first
        obtain ⟨equal, fine⟩ := ih (fun d member => each d (by simp [member])) others
        refine ⟨by rw [becomesAll, same, equal], ?_⟩
        intro n member
        rcases List.mem_append.mp member with front | back
        · exact good n front
        · exact fine n back

theorem convert_ok (mode : StyleMode) (a : Ast) (i : Inherited) (depth : Nat) {nodes : List Node}
    (converted : convert mode i depth a = .ok nodes) :
    nodes = becomes mode i a ∧ ∀ n ∈ nodes, depth ≤ maxDepth ∧ Within (maxDepth - depth) n := by
  induction a using Ast.induct generalizing i depth nodes with
  | node h children ih =>
    have le := convert_le converted
    have all : ∀ (j : Inherited) (inside : List Node),
        convertAll mode j (depth + 1) children = .ok inside → inside = becomesAll mode j children ∧
          ∀ n ∈ inside, depth + 1 ≤ maxDepth ∧ Within (maxDepth - (depth + 1)) n :=
      fun j inside => convertAll_ok fun c member nodes => ih c member j (depth + 1)
    have leaf : ∀ n : Node, n.children = [] → depth ≤ maxDepth ∧ Within (maxDepth - depth) n :=
      fun n none => ⟨le, Within.of_childless none _⟩
    have room : ∀ inside : List Node, (∀ n ∈ inside, depth + 1 ≤ maxDepth ∧
        Within (maxDepth - (depth + 1)) n) → inside ≠ [] → depth + 1 ≤ maxDepth := by
      intro inside deep some
      obtain ⟨n, member⟩ := List.exists_mem_of_ne_nil inside some
      exact (deep n member).1
    rw [convert_node mode i le] at converted
    rw [becomes_node]
    cases sense : meaning h with
    | nothing =>
      rw [sense] at converted
      cases converted
      exact ⟨rfl, by simp⟩
    | words data =>
      rw [sense] at converted
      cases converted
      exact ⟨rfl, by simpa using leaf _ rfl⟩
    | group =>
      rw [sense] at converted
      obtain ⟨same, deep⟩ := all i nodes converted
      refine ⟨same, fun n member => ⟨le, ?_⟩⟩
      exact (deep n member).2.mono (by omega)
    | lineBreak =>
      rw [sense] at converted
      cases converted
      exact ⟨rfl, by simpa using leaf _ rfl⟩
    | formatting mark m =>
      rw [sense] at converted
      obtain ⟨inside, given, rfl⟩ := ok_of_map converted
      obtain ⟨same, deep⟩ := all _ inside given
      have wrapped := formatted_within mode h m (fun n member => (deep n member).2)
        (room inside deep)
      exact ⟨by rw [same], fun n member => ⟨le, wrapped n member⟩⟩
    | void m =>
      rw [sense] at converted
      cases converted
      exact ⟨rfl, by simpa using leaf _ rfl⟩
    | element m =>
      rw [sense] at converted
      obtain ⟨inside, given, rfl⟩ := ok_of_map converted
      obtain ⟨same, deep⟩ := all _ inside given
      have around := element_within (head mode h m m.target) (fun n member => (deep n member).2)
        (room inside deep)
      exact ⟨by rw [same], by simpa using ⟨le, around⟩⟩

theorem convertAll_eq {mode : StyleMode} {i : Inherited} {depth : Nat} {trees : List Ast}
    (each : ∀ c ∈ trees, convert mode i depth c = .ok (becomes mode i c)) :
    convertAll mode i depth trees = .ok (becomesAll mode i trees) := by
  induction trees with
  | nil => rw [convertAll, becomesAll]
  | cons c rest ih =>
    have others := ih fun d member => each d (by simp [member])
    rw [convertAll, becomesAll, each c (by simp), others]
    rfl

theorem convert_of_within (mode : StyleMode) (a : Ast) (i : Inherited) {depth levels : Nat}
    (inside : Within levels a) (le : depth + levels ≤ maxDepth) :
    convert mode i depth a = .ok (becomes mode i a) := by
  induction a using Ast.induct generalizing i depth levels with
  | node h children ih =>
    have all : ∀ j : Inherited,
        convertAll mode j (depth + 1) children = .ok (becomesAll mode j children) := by
      intro j
      refine convertAll_eq fun c member => ?_
      obtain ⟨fewer, rfl, deep⟩ := inside.child member
      exact ih c member j deep (by omega)
    rw [convert_node mode i (by omega), becomes_node]
    cases meaning h with
    | group => exact all i
    | formatting mark m =>
      simp only [all]
      rfl
    | element m =>
      simp only [all]
      rfl
    | _ => rfl

theorem convertAll_error {mode : StyleMode} {i : Inherited} {depth : Nat} {f : Fault}
    {trees : List Ast} (failed : convertAll mode i depth trees = .error f) :
    ∃ c ∈ trees, convert mode i depth c = .error f := by
  induction trees with
  | nil =>
    rw [convertAll] at failed
    cases failed
  | cons c rest ih =>
    rw [convertAll] at failed
    cases first : convert mode i depth c with
    | error g =>
      rw [first] at failed
      cases failed
      exact ⟨c, by simp, first⟩
    | ok nodes =>
      cases others : convertAll mode i depth rest with
      | error g =>
        rw [first, others] at failed
        cases failed
        obtain ⟨d, member, wrong⟩ := ih others
        exact ⟨d, by simp [member], wrong⟩
      | ok more =>
        rw [first, others] at failed
        cases failed

theorem convert_error (mode : StyleMode) (a : Ast) (i : Inherited) (depth : Nat) {f : Fault}
    (failed : convert mode i depth a = .error f) :
    f = .tooDeep depthLimit "structure" .null none := by
  induction a using Ast.induct generalizing i depth with
  | node h children ih =>
    have all : ∀ j : Inherited, convertAll mode j (depth + 1) children = .error f →
        f = .tooDeep depthLimit "structure" .null none := by
      intro j wrong
      obtain ⟨c, member, one⟩ := convertAll_error wrong
      exact ih c member j (depth + 1) one
    by_cases le : depth ≤ maxDepth
    · rw [convert_node mode i le] at failed
      cases sense : meaning h with
      | group =>
        rw [sense] at failed
        exact all i failed
      | formatting mark m =>
        rw [sense] at failed
        exact all _ (error_of_map failed)
      | element m =>
        rw [sense] at failed
        exact all _ (error_of_map failed)
      | _ =>
        rw [sense] at failed
        cases failed
    · rw [convert, if_pos (by omega)] at failed
      cases failed
      rfl

theorem nodesOf_ok {mode : StyleMode} {a : Ast} {nodes : List Node} (top : a.head.kind = .root)
    (converted : nodesOf mode a = .ok nodes) :
    nodes = becomes mode .nothing a ∧ Within maxDepth (Node.root.withChildren nodes) := by
  cases a with
  | node h children =>
    have sense : meaning h = .group := by
      rw [meaning, show h.kind = .root from top]
    rw [nodesOf, convert_node mode .nothing (Nat.zero_le _), sense] at converted
    obtain ⟨same, deep⟩ := convertAll_ok (fun c _ _ => convert_ok mode c .nothing 1) converted
    rw [becomes_node, sense]
    exact ⟨same, fun n member => (deep n member).2⟩

end SemanticMarkup.Passes
