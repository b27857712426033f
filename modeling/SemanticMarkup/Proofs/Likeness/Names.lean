import SemanticMarkup.Proofs.Likeness.Rules
import SemanticMarkup.Proofs.Likeness.Tree
import SemanticMarkup.Proofs.Text.Blanks
import SemanticMarkup.Proofs.Text.Lowering

namespace SemanticMarkup

namespace Text

def smallLetter (c : Char) : Char := if c.toNat < 0x80 then c.toLower else c

theorem smallLetter_cases (c : Char) : smallLetter c = c ∨
    ∃ n < 26, c = Char.ofNat (65 + n) ∧ smallLetter c = Char.ofNat (97 + n) := by
  by_cases low : c.toNat < 0x80
  · exact ascii_cases (P := fun c => smallLetter c = c ∨
      ∃ n < 26, c = Char.ofNat (65 + n) ∧ smallLetter c = Char.ofNat (97 + n)) (by decide +kernel) low
  · exact .inl (if_neg low)

theorem same_smallLetter {α : Type} (f : Char → α)
    (letters : ∀ n < 26, f (Char.ofNat (97 + n)) = f (Char.ofNat (65 + n))) (c : Char) :
    f (smallLetter c) = f c := by
  rcases smallLetter_cases c with same | ⟨n, lt, capital, small⟩
  · rw [same]
  · rw [small, letters n lt, capital]

theorem isCased_smallLetter (c : Char) : isCased (smallLetter c) = isCased c :=
  same_smallLetter isCased (by decide +kernel) c

theorem not_anyHolds_of_apart {s : Span} {table : List Span} {c : Char}
    (apart : table.all s.apart = true) (inside : s.holds c.toNat = true) :
    Span.anyHolds table c = false := by
  refine List.any_eq_false.mpr fun t member => ?_
  rw [Span.holds_of_apart (List.all_eq_true.mp apart t member) inside]
  exact Bool.false_ne_true

theorem ignorable_smallLetter (c : Char) :
    Span.anyHolds CaseTable.ignorable (smallLetter c) = Span.anyHolds CaseTable.ignorable c := by
  have small : ∀ n < 26, (⟨0x61, 0x7A, 1⟩ : Span).holds (Char.ofNat (97 + n)).toNat = true := by
    decide +kernel
  have capital : ∀ n < 26, (⟨0x41, 0x5A, 1⟩ : Span).holds (Char.ofNat (65 + n)).toNat = true := by
    decide +kernel
  refine same_smallLetter (Span.anyHolds CaseTable.ignorable) (fun n lt => ?_) c
  rw [not_anyHolds_of_apart (by decide +kernel) (small n lt),
    not_anyHolds_of_apart (by decide +kernel) (capital n lt)]

theorem lowerOf_smallLetter (c : Char) : lowerOf (smallLetter c) = lowerOf c :=
  same_smallLetter lowerOf (by decide +kernel) c

theorem sigma_smallLetter (c : Char) : (smallLetter c).toNat = 0x3A3 ↔ c.toNat = 0x3A3 := by
  have same := same_smallLetter (fun c => c.toNat == 0x3A3) (by decide +kernel) c
  simpa using same

theorem dropWhile_map {p : Char → Bool} {f : Char → Char} (same : ∀ c, p (f c) = p c) (cs : List Char) :
    (cs.map f).dropWhile p = (cs.dropWhile p).map f := by
  rw [List.dropWhile_map]
  congr 2
  funext c
  exact same c

theorem letterNext_small (cs : List Char) : letterNext (cs.map smallLetter) = letterNext cs := by
  unfold letterNext
  rw [dropWhile_map ignorable_smallLetter]
  cases cs.dropWhile (Span.anyHolds CaseTable.ignorable) with
  | nil => rfl
  | cons c _ => exact isCased_smallLetter c

theorem lowerFrom_small (before cs : List Char) :
    lowerFrom (before.map smallLetter) (cs.map smallLetter) = lowerFrom before cs := by
  induction cs generalizing before with
  | nil => rfl
  | cons c rest ih =>
    have inner := ih (c :: before)
    rw [List.map_cons] at inner
    rw [List.map_cons, lowerFrom, lowerFrom, inner, letterNext_small, letterNext_small,
      lowerOf_smallLetter]
    simp only [sigma_smallLetter]

theorem lower_small (cs : List Char) : lower (cs.map smallLetter) = lower cs := lowerFrom_small [] cs

end Text

namespace Tag

-- The name under which the table of tags is asked for a name.
def canonical (name : String) : String := .ofList (Text.lower (Text.trim name.toList))

theorem spelled_iff (name : String) : Spelled name ↔ canonical name = name := Iff.rfl

theorem mapping_canonical (name : String) : mapping? name = named? (canonical name) := by
  unfold mapping?
  split
  · rename_i empty
    rw [empty]
    rfl
  · rfl

theorem canonical_of_case {name other : String}
    (same : (Text.trim name.toList).map Text.smallLetter = (Text.trim other.toList).map Text.smallLetter) :
    canonical name = canonical other := by
  unfold canonical
  rw [← Text.lower_small, same, Text.lower_small]

-- A tag that neither formats nor is one that later passes look for.
def Ordinary (tag : String) : Prop :=
  Table.get? formatting tag = none ∧ tag ∉ image :: Node.structuralTags

-- Names of one tag, which the table has both as they stand or both not, unless the tag is ordinary.
structure Respelled (name other : String) : Prop where
  same : canonical name = canonical other
  seen : name = other ∨ (¬Spelled name ∧ ¬Spelled other) ∨ Ordinary (canonical name)

-- Names of one tag that have the same classes: those of an unstyled tag have none in any spelling.
def SameClasses (name other : String) : Prop :=
  name = other ∨ (¬Spelled name ∧ ¬Spelled other) ∨
    (Stylesheet.className? (canonical name) = none ∧ Stylesheet.textClassName? (canonical name) = none)

-- A lookup of names as they stand tells those of one tag apart only if it finds something for the tag
-- and one of them alone is spelled so.
theorem lookup_alike {α : Type} {f : String → α} {nothing : α}
    (raw : ∀ name, ¬Spelled name → f name = nothing) {name other : String}
    (same : canonical name = canonical other)
    (seen : name = other ∨ (¬Spelled name ∧ ¬Spelled other) ∨ f (canonical name) = nothing) :
    f name = f other := by
  rcases seen with equal | ⟨left, right⟩ | none
  · rw [equal]
  · rw [raw name left, raw other right]
  · have each : ∀ n, canonical n = canonical name → f n = nothing := by
      intro n known
      by_cases spelled : Spelled n
      · rw [← (spelled_iff n).mp spelled, known]
        exact none
      · exact raw n spelled
    rw [each name rfl, each other same.symm]

theorem spelled_of_lookup {α : Type} {name : String} {value : α} {table : Table α}
    (keys : ∀ key ∈ Table.keys table, Spelled key) (found : Table.get? table name = some value) :
    Spelled name := keys name (List.mem_map_of_mem (f := Prod.fst) (Table.mem_of_get? found))

theorem formatting_unspelled (name : String) (other : ¬Spelled name) : Table.get? formatting name = none := by
  cases found : Table.get? formatting name with
  | none => rfl
  | some mark => exact absurd (spelled_of_lookup (by decide +kernel) found) other

theorem named_unspelled (name : String) (other : ¬Spelled name) : named? name = none := by
  cases named : named? name with
  | none => rfl
  | some m => exact absurd (spelled_of_named named).1 other

theorem className_unspelled (name : String) (other : ¬Spelled name) : Stylesheet.className? name = none := by
  rw [Stylesheet.className?, named_unspelled name other, Option.bind_none]

theorem textClassName_unspelled (name : String) (other : ¬Spelled name) :
    Stylesheet.textClassName? name = none := by
  rw [Stylesheet.textClassName?, named_unspelled name other, Option.bind_none]

namespace Respelled
variable {name other : String}

theorem mapping (respelled : Respelled name other) : mapping? name = mapping? other := by
  rw [mapping_canonical, mapping_canonical, respelled.same]

theorem formatting (respelled : Respelled name other) :
    Table.get? Tag.formatting name = Table.get? Tag.formatting other :=
  lookup_alike formatting_unspelled respelled.same
    (respelled.seen.imp_right fun seen => seen.imp_right And.left)

theorem structural (respelled : Respelled name other) :
    ∀ tag ∈ image :: Node.structuralTags, (name == tag) = (other == tag) := by
  intro tag member
  have spelled : ∀ tag ∈ image :: Node.structuralTags, Spelled tag := by decide +kernel
  have unspelled : ∀ name, ¬Spelled name → (name == tag) = false := by
    intro name not
    rw [beq_eq_false_iff_ne]
    rintro rfl
    exact not (spelled name member)
  refine lookup_alike unspelled respelled.same (respelled.seen.imp_right fun seen => seen.imp_right ?_)
  intro ordinary
  rw [beq_eq_false_iff_ne]
  rintro rfl
  exact ordinary.2 member

end Respelled

theorem classes_alike {name other : String} (same : canonical name = canonical other)
    (classes : SameClasses name other) :
    Stylesheet.className? name = Stylesheet.className? other ∧
      Stylesheet.textClassName? name = Stylesheet.textClassName? other :=
  ⟨lookup_alike className_unspelled same (classes.imp_right fun seen => seen.imp_right And.left),
    lookup_alike textClassName_unspelled same (classes.imp_right fun seen => seen.imp_right And.right)⟩

end Tag
end SemanticMarkup
