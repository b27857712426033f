import SemanticMarkup.Proofs.Likeness.Conversion
import SemanticMarkup.Proofs.Merge.Normal

namespace SemanticMarkup
open Walk Passes

-- Two tables of marks that differ only in the order of their keys.
structure SameTable (t u : Table Value) : Prop where
  once : (Table.keys t).Nodup
  perm : t.Perm u

def TextLeaf.Reordered (l m : TextLeaf) : Prop :=
  ∃ t u, SameTable t u ∧ l.marks = Inherited.unlessEmpty t ∧
    m = { l with marks := Inherited.unlessEmpty u }

inductive Node.Reordered : Node → Node → Prop where
  | element {head : ElementHead} {cs ds : List Node} (inside : List.Forall₂ Node.Reordered cs ds) :
    Node.Reordered (.element head cs) (.element head ds)
  | text {l m : TextLeaf} (leaf : l.Reordered m) : Node.Reordered (.text l) (.text m)

namespace Passes
open Node

theorem joinable_reordered : Joinable TextLeaf.Reordered where
  content := by
    rintro l _ ⟨t, u, _, _, rfl⟩
    rfl
  annotations := by
    rintro l _ ⟨t, u, _, _, rfl⟩
    rfl
  sameMarks := by
    rintro l _ k _ ⟨t, u, one, marks, rfl⟩ ⟨v, w, other, more, rfl⟩
    rw [TextLeaf.sameMarks, TextLeaf.sameMarks, marks, more]
    exact Marks.same_of_perm other.once one.perm other.perm
  refilled := by
    rintro l _ ⟨t, u, one, marks, rfl⟩ content annotations
    exact ⟨t, u, one, marks, rfl⟩

theorem merged_reordered {nodes others : List Node} (alike : List.Forall₂ Reordered nodes others) :
    List.Forall₂ Reordered (merged nodes) (merged others) := by
  refine mergeFrom_related joinable_reordered .text (fun one => ?_) alike .none
  cases one with
  | text leaf => exact .inl ⟨_, _, rfl, rfl, leaf⟩
  | element _ => exact .inr ⟨nofun, nofun⟩

structure Handed (i j : Inherited) : Prop where
  marks : SameTable i.marks j.marks
  styles : i.styles = j.styles
  classes : i.classes = j.classes

theorem sameTable_iff {t u : Table Value} :
    SameTable t u ↔ (Table.keys t).Nodup ∧ (Table.keys u).Nodup ∧ ∀ key, Table.get? t key = Table.get? u key := by
  constructor
  · intro same
    have onceToo := Table.nodup_of_perm same.once same.perm
    exact ⟨same.once, onceToo, (Table.perm_iff_get? same.once onceToo).mp same.perm⟩
  · rintro ⟨once, onceToo, found⟩
    exact ⟨once, (Table.perm_iff_get? once onceToo).mpr found⟩

theorem Handed.withMark {i j : Inherited} (handed : Handed i j) (mark : String) :
    Handed (i.withMark mark) (j.withMark mark) := by
  obtain ⟨once, onceToo, found⟩ := sameTable_iff.mp handed.marks
  refine ⟨sameTable_iff.mpr ⟨Table.keys_set_nodup once _ _, Table.keys_set_nodup onceToo _ _, fun key => ?_⟩,
    handed.styles, handed.classes⟩
  rw [Inherited.withMark, Inherited.withMark, Table.get?_set, Table.get?_set, found]

theorem Handed.within {i j : Inherited} (handed : Handed i j) (mode : StyleMode) (tag : String)
    (m : TagMapping) : Handed (i.within mode tag m) (j.within mode tag m) := by
  obtain ⟨marks, styles, classes⟩ := i
  obtain ⟨others, styles', classes'⟩ := j
  obtain ⟨same, rfl, rfl⟩ := handed
  unfold Inherited.within
  cases mode with
  | inline => exact ⟨same, rfl, rfl⟩
  | cssClass =>
    dsimp only
    split
    · exact ⟨same, rfl, rfl⟩
    · split <;> exact ⟨same, rfl, rfl⟩

theorem Handed.leaf {i j : Inherited} (handed : Handed i j) (content source : String) :
    (i.leaf content source).Reordered (j.leaf content source) := by
  refine ⟨i.marks, j.marks, handed.marks, rfl, ?_⟩
  rw [Inherited.leaf, Inherited.leaf, handed.styles, handed.classes]

theorem parallel_reordered (mode : StyleMode) : Parallel Reordered mode mode Eq Handed where
  meaning same := congrArg meaning same
  element same _ _ inside := same ▸ .element inside
  text handed content source := .text (handed.leaf content source)
  withMark handed := handed.withMark
  within handed same _ _ := same ▸ handed.within _ _ _
  merged := merged_reordered
  needsWrapper one := by
    cases one <;> rfl

theorem becomesAll_reordered (mode : StyleMode) (cs : List Ast) {i j : Inherited} (handed : Handed i j) :
    List.Forall₂ Reordered (becomesAll mode i cs) (becomesAll mode j cs) := by
  have twins : List.Forall₂ (Ast.Twins Eq) cs cs :=
    List.forall₂_same.mpr fun c _ => .of_everywhere (everywhere_of_each (fun _ => rfl) c)
  exact (parallel_reordered mode).becomesAll twins handed

end Passes

-- A chain of tags around some markup, the outermost first.
def Ast.chained : AstHead → List AstHead → List Ast → Ast
  | f, [], cs => .node f cs
  | f, g :: rest, cs => .node f [chained g rest cs]

def Passes.Inherited.withMarks (i : Inherited) (tags : List AstHead) : Inherited :=
  (tags.filterMap AstHead.mark?).foldl withMark i

namespace Passes
open Node Ast

theorem withMarks_cons {h : AstHead} {mark : String} (formats : h.mark? = some mark) (i : Inherited)
    (rest : List AstHead) : i.withMarks (h :: rest) = (i.withMark mark).withMarks rest := by
  rw [Inherited.withMarks, List.filterMap_cons, formats]
  rfl

theorem withMarks_cons_none {h : AstHead} (plain : h.mark? = none) (i : Inherited)
    (rest : List AstHead) : i.withMarks (h :: rest) = i.withMarks rest := by
  rw [Inherited.withMarks, List.filterMap_cons, plain]
  rfl

theorem get?_withMarks (tags : List AstHead) (i : Inherited) (key : String) :
    Table.get? (i.withMarks tags).marks key =
      if ∃ h ∈ tags, h.mark? = some key then some (.flag true) else Table.get? i.marks key := by
  induction tags generalizing i with
  | nil => simp [Inherited.withMarks]
  | cons h rest ih =>
    cases formats : h.mark? with
    | none =>
      rw [withMarks_cons_none formats, ih]
      simp [formats]
    | some mark =>
      rw [withMarks_cons formats, ih, Inherited.withMark, Table.get?_set]
      by_cases own : mark = key
      · simp [formats, own]
      · simp [formats, own, Ne.symm own]

theorem withMarks_kept (tags : List AstHead) {i : Inherited} (once : (Table.keys i.marks).Nodup) :
    (Table.keys (i.withMarks tags).marks).Nodup ∧ (i.withMarks tags).styles = i.styles ∧
      (i.withMarks tags).classes = i.classes := by
  induction tags generalizing i with
  | nil => exact ⟨once, rfl, rfl⟩
  | cons h rest ih =>
    cases formats : h.mark? with
    | none =>
      rw [withMarks_cons_none formats]
      exact ih once
    | some mark =>
      rw [withMarks_cons formats]
      exact ih (Table.keys_set_nodup once mark _)

theorem handed_withMarks {i : Inherited} (once : (Table.keys i.marks).Nodup) {tags others : List AstHead}
    (same : ∀ mark, (∃ h ∈ tags, h.mark? = some mark) ↔ ∃ h ∈ others, h.mark? = some mark) :
    Handed (i.withMarks tags) (i.withMarks others) := by
  obtain ⟨first, styles, classes⟩ := withMarks_kept tags once
  obtain ⟨second, styles', classes'⟩ := withMarks_kept others once
  refine ⟨sameTable_iff.mpr ⟨first, second, fun key => ?_⟩, styles.trans styles'.symm,
    classes.trans classes'.symm⟩
  simp only [get?_withMarks, same]

theorem formatting_mapping {name mark : String} (formats : Table.get? Tag.formatting name = some mark) :
    ∃ m, Tag.mapping? name = some m ∧ m.isLineBreak = false ∧ m.role = .inline ∧
      m.capabilities = .holdsText .inline := by
  have all : ∀ entry ∈ Tag.formatting, (Tag.mapping? entry.1).any (fun m => !m.isLineBreak &&
      m.role == .inline && m.capabilities == .holdsText .inline) = true := by
    decide
  have one := all _ (Table.mem_of_get? formats)
  cases mapped : Tag.mapping? name with
  | none => simp [mapped] at one
  | some m =>
    simp only [mapped, Option.any_some, Bool.and_eq_true, Bool.not_eq_true', beq_iff_eq] at one
    exact ⟨m, rfl, one.1.1, one.1.2, one.2⟩

theorem meaning_of_mark {h : AstHead} (formats : h.mark?.isSome = true) :
    ∃ mark m, h.mark? = some mark ∧ meaning h = .formatting mark m ∧ m.role = .inline ∧
      m.capabilities = .holdsText .inline := by
  obtain ⟨mark, given⟩ := Option.isSome_iff_exists.mp formats
  cases tag : h.isTag with
  | false => simp [AstHead.mark?, tag] at given
  | true =>
    have formatting : Table.get? Tag.formatting h.tagName = some mark := by
      simpa [AstHead.mark?, tag] using given
    obtain ⟨m, mapped, whole, role, capabilities⟩ := formatting_mapping formatting
    refine ⟨mark, m, given, ?_, role, capabilities⟩
    simp [meaning_of_tag tag, Meaning.ofTag, mapped, whole, formatting]

theorem formatted_of_bare (mode : StyleMode) (h : AstHead) (m : TagMapping) {nodes : List Node}
    (gated : Gated nodes) (bare : Bare nodes) : formatted mode h m nodes = nodes := by
  rcases formatted_forms mode h m nodes with ⟨same, _⟩ | ⟨_, full⟩
  · rw [same, merged_of_gated gated]
  · rw [merged_of_gated gated] at full
    exact absurd bare full

theorem formatted_formatted (mode : StyleMode) (h k : AstHead) (m : TagMapping) {l : TagMapping}
    (inline : l.role = .inline) (inside : List Node) :
    formatted mode h m (formatted mode k l inside) = formatted mode k l inside := by
  rcases formatted_forms mode k l inside with ⟨plain, bare⟩ | ⟨wrapped, _⟩
  · rw [plain]
    exact formatted_of_bare mode h m (gated_merged inside) bare
  · rw [wrapped]
    have needless : needsWrapper (.element (head mode k l "text") (merged inside)) = false := by
      show (true && wrappedRoles.contains ⟨l.role.name⟩) = false
      rw [inline]
      decide
    exact formatted_of_bare mode h m (.singleton _) (by simpa [Bare] using needless)

theorem convertAll_singleton (mode : StyleMode) (i : Inherited) (depth : Nat) (c : Ast) :
    convertAll mode i depth [c] = convert mode i depth c := by
  rw [convertAll, convertAll]
  cases convert mode i depth c with
  | error f => rfl
  | ok nodes => exact congrArg Except.ok (List.append_nil nodes)

theorem convert_chained {mode : StyleMode} {f : AstHead} {fs : List AstHead} {cs : List Ast}
    (formats : ∀ h ∈ f :: fs, h.mark?.isSome = true) {i : Inherited} {depth : Nat} {nodes : List Node}
    (converted : convert mode i depth (chained f fs cs) = .ok nodes) :
    ∃ m content, m.role = .inline ∧ m.capabilities = .holdsText .inline ∧
      convertAll mode (i.withMarks (f :: fs)) (depth + fs.length + 1) cs = .ok content ∧
      nodes = formatted mode (fs.getLastD f) m content := by
  induction fs generalizing f i depth nodes with
  | nil =>
    obtain ⟨mark, m, given, sense, role, capabilities⟩ := meaning_of_mark (formats f (by simp))
    rw [chained, convert_node mode i (convert_le converted), sense] at converted
    obtain ⟨content, inner, rfl⟩ := ok_of_map converted
    refine ⟨m, content, role, capabilities, ?_, rfl⟩
    rw [withMarks_cons given]
    exact inner
  | cons g rest ih =>
    obtain ⟨mark, m, given, sense, _⟩ := meaning_of_mark (formats f (by simp))
    rw [chained, convert_node mode i (convert_le converted), sense] at converted
    obtain ⟨inside, inner, rfl⟩ := ok_of_map converted
    rw [convertAll_singleton] at inner
    obtain ⟨l, content, role, capabilities, deeper, rfl⟩ :=
      ih (fun h member => formats h (List.mem_cons_of_mem _ member)) inner
    refine ⟨l, content, role, capabilities, ?_, ?_⟩
    · rw [withMarks_cons given, List.length_cons, show depth + (rest.length + 1) + 1 = depth + 1 + rest.length + 1 by omega]
      exact deeper
    -- The inner tags have left at most one node, which needs no wrapper, so this tag adds none.
    · rw [formatted_formatted mode f _ m role content, List.getLastD_cons]

-- The head of a wrapper that is built for a tag, as far as it does not depend on the mode.
structure Wraps (inner : AstHead) (head : ElementHead) : Prop where
  tag : head.tag = .text "text"
  role : head.role = .text "inline"
  capabilities : head.capabilities = .known (.holdsText .inline)
  annotations : head.annotations =
    .record [("source_tag", .text inner.tagName), ("source_attrs", .record inner.attributes)]

theorem wraps_head (mode : StyleMode) (h : AstHead) {m : TagMapping} (role : m.role = .inline)
    (capabilities : m.capabilities = .holdsText .inline) : Wraps h (head mode h m "text") :=
  ⟨rfl, by rw [head, role]; rfl, by rw [head, capabilities], rfl⟩

theorem Bare.length_le {nodes : List Node} (bare : Bare nodes) : nodes.length ≤ 1 := by
  cases nodes with
  | nil => exact Nat.zero_le 1
  | cons n rest => rw [(bare n List.mem_cons_self).1, List.length_singleton]

theorem bare_congr {nodes others : List Node} (alike : List.Forall₂ Reordered nodes others) :
    Bare nodes ↔ Bare others := by
  cases alike with
  | nil => exact Iff.rfl
  | cons one later =>
    cases later with
    | nil => simp [Bare, (parallel_reordered .inline).needsWrapper one]
    | cons two more =>
      exact iff_of_false (fun bare => absurd bare.length_le (by simp))
        (fun bare => absurd bare.length_le (by simp))

theorem content_reordered {mode : StyleMode} {i j : Inherited} (handed : Handed i j) {depth level : Nat}
    {cs : List Ast} {content more : List Node} (converted : convertAll mode i depth cs = .ok content)
    (convertedToo : convertAll mode j level cs = .ok more) : List.Forall₂ Reordered content more := by
  obtain ⟨rfl, _⟩ := convertAll_ok (fun c _ _ => convert_ok mode c i depth) converted
  obtain ⟨rfl, _⟩ := convertAll_ok (fun c _ _ => convert_ok mode c j level) convertedToo
  exact becomesAll_reordered mode cs handed

-- Chains of formatting tags that give the same marks convert alike. What is inside is merged, and both
-- chains leave it so, or both put one wrapper around it, which is that of the innermost tag.
theorem chains_compose (mode : StyleMode) {i : Inherited} (once : (Table.keys i.marks).Nodup)
    (cs : List Ast) {f g : AstHead} {fs gs : List AstHead}
    (formats : ∀ h ∈ f :: fs, h.mark?.isSome = true) (formatsToo : ∀ h ∈ g :: gs, h.mark?.isSome = true)
    (same : ∀ mark, (∃ h ∈ f :: fs, h.mark? = some mark) ↔ ∃ h ∈ g :: gs, h.mark? = some mark)
    {depth level : Nat} {nodes others : List Node}
    (converted : convert mode i depth (chained f fs cs) = .ok nodes)
    (convertedToo : convert mode i level (chained g gs cs) = .ok others) :
    nodes.length ≤ 1 ∧ others.length ≤ 1 ∧ ∃ content more,
      convertAll mode (i.withMarks (f :: fs)) (depth + fs.length + 1) cs = .ok content ∧
      convertAll mode (i.withMarks (g :: gs)) (level + gs.length + 1) cs = .ok more ∧
      List.Forall₂ Reordered (merged content) (merged more) ∧
      (nodes = merged content ∧ others = merged more ∨
        ∃ h k, Wraps (fs.getLastD f) h ∧ Wraps (gs.getLastD g) k ∧
          nodes = [.element h (merged content)] ∧ others = [.element k (merged more)]) := by
  obtain ⟨m, content, role, capabilities, inner, rfl⟩ := convert_chained formats converted
  obtain ⟨l, more, roleToo, capabilitiesToo, innerToo, rfl⟩ := convert_chained formatsToo convertedToo
  have alike := merged_reordered (content_reordered (handed_withMarks once same) inner innerToo)
  rcases formatted_forms mode (fs.getLastD f) m content with ⟨plain, bare⟩ | ⟨wrapped, full⟩ <;>
    rcases formatted_forms mode (gs.getLastD g) l more with ⟨plainToo, bareToo⟩ | ⟨wrappedToo, fullToo⟩
  · rw [plain, plainToo]
    exact ⟨bare.length_le, bareToo.length_le, content, more, inner, innerToo, alike, .inl ⟨rfl, rfl⟩⟩
  · exact absurd ((bare_congr alike).mp bare) fullToo
  · exact absurd ((bare_congr alike).mpr bareToo) full
  · rw [wrapped, wrappedToo]
    exact ⟨Nat.le_refl 1, Nat.le_refl 1, content, more, inner, innerToo, alike, .inr ⟨_, _,
      wraps_head mode _ role capabilities, wraps_head mode _ roleToo capabilitiesToo, rfl, rfl⟩⟩

def letterAndBlock : List Ast := [.node (.text "x") [], .node (.tag "div" []) []]

def boldEmphasis : Ast := chained (.tag "b" []) [.tag "em" []] letterAndBlock

def italicStrong : Ast :=
  chained (.tag "i" []) [.tag "strong" [], .tag "b" [("title", "y")]] letterAndBlock

theorem boldEmphasis_composed :
    ∃ nodes others, convert .inline .nothing 0 boldEmphasis = .ok nodes ∧
      convert .inline .nothing 0 italicStrong = .ok others ∧ ∃ h k inside more,
        Wraps (.tag "em" []) h ∧ Wraps (.tag "b" [("title", "y")]) k ∧
        nodes = [.element h inside] ∧ others = [.element k more] ∧ inside.length = 2 ∧
        List.Forall₂ Reordered inside more := by
  have same : ∀ mark, (∃ h ∈ [AstHead.tag "b" [], .tag "em" []], h.mark? = some mark) ↔
      ∃ h ∈ [AstHead.tag "i" [], .tag "strong" [], .tag "b" [("title", "y")]], h.mark? = some mark := by
    intro mark
    simp [AstHead.mark?, AstHead.tag, AstHead.isTag, AstHead.tagName, Value.text?, Tag.formatting,
      Table.get?_cons]
    tauto
  have first : convert .inline .nothing 0 boldEmphasis = .ok _ := rfl
  have second : convert .inline .nothing 0 italicStrong = .ok _ := rfl
  have content : convertAll .inline (Inherited.nothing.withMarks [.tag "b" [], .tag "em" []]) 2
    letterAndBlock = .ok _ := rfl
  obtain ⟨_, _, inside, more, inner, _, alike, composed⟩ := chains_compose .inline (i := .nothing)
    List.nodup_nil letterAndBlock (by decide) (by decide) same first second
  cases (content.symm.trans inner : Except.ok _ = Except.ok inside)
  rcases composed with ⟨plain, _⟩ | ⟨h, k, left, right, one, two⟩
  · exact absurd (congrArg List.length plain) (by decide)
  · exact ⟨_, _, first, second, h, k, _, _, left, right, one, two, rfl, alike⟩

end Passes
end SemanticMarkup
