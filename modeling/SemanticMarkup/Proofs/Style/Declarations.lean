import SemanticMarkup.Style
import SemanticMarkup.Proofs.Table
import SemanticMarkup.Proofs.Text.Blanks

namespace SemanticMarkup

namespace Text

theorem lowerOf_ne_nil (c : Char) : lowerOf c ≠ [] := by
  unfold lowerOf
  split
  · simp
  · split
    · simp
    · split <;> simp

theorem lower_eq_nil_iff {cs : List Char} : lower cs = [] ↔ cs = [] := by
  cases cs with
  | nil => simp
  | cons c rest =>
    simp only [lower, lowerFrom, List.append_eq_nil_iff, reduceCtorEq, iff_false, not_and_or]
    left
    split
    · simp
    · exact lowerOf_ne_nil c

end Text

namespace Style

def keyOf (name : List Char) : List Char := toKey (if isCustom name then name else Text.lower name)

theorem joinWords_eq_nil_iff {name : List Char} : joinWords name = [] ↔ name = [] := by
  fun_cases joinWords name <;> simp_all

theorem toKey_eq_nil_iff {name : List Char} : toKey name = [] ↔ name = [] := by
  unfold toKey
  split
  · rfl
  · exact joinWords_eq_nil_iff

theorem keyOf_eq_nil_iff {name : List Char} : keyOf name = [] ↔ name = [] := by
  unfold keyOf
  rw [toKey_eq_nil_iff]
  split
  · rfl
  · exact Text.lower_eq_nil_iff

theorem readDeclaration?_plain {cs : List Char} (plain : ':' ∉ cs) : readDeclaration? cs = none := by
  have whole : cs.dropWhile (· ≠ ':') = [] := by
    refine Text.dropWhile_eq_nil.mpr fun c member => ?_
    have differ : c ≠ ':' := fun same => plain (same ▸ member)
    simpa using differ
  rw [readDeclaration?, whole]

theorem readDeclaration?_colon {name : List Char} (plain : ':' ∉ name) (value : List Char) :
    readDeclaration? (name ++ ':' :: value) =
      if Text.allBlank name || Text.allBlank value then none
      else some (.ofList (keyOf (Text.trim name)), .ofList (Text.trim value)) := by
  have before : ∀ c ∈ name, decide (c ≠ ':') = true := by
    intro c member
    have differ : c ≠ ':' := fun same => plain (same ▸ member)
    simpa using differ
  have taken : (name ++ ':' :: value).takeWhile (· ≠ ':') = name := by
    rw [List.takeWhile_append_of_pos before, List.takeWhile_cons_of_neg (by simp), List.append_nil]
  have left : (name ++ ':' :: value).dropWhile (· ≠ ':') = ':' :: value := by
    rw [List.dropWhile_append_of_pos before, List.dropWhile_cons_of_neg (by simp)]
  have same : ∀ cs, (Text.trim cs).isEmpty = Text.allBlank cs := by
    intro cs
    rw [Bool.eq_iff_iff, List.isEmpty_iff, Text.trim_eq_nil_iff]
  rw [readDeclaration?, left, taken]
  dsimp only
  rw [same, same]
  rfl

-- A declaration without a colon, without a name or without a value.
def Faulty (cs : List Char) : Prop :=
  ':' ∉ cs ∨ ∃ name value, cs = name ++ ':' :: value ∧ ':' ∉ name ∧
    (Text.allBlank name = true ∨ Text.allBlank value = true)

theorem readDeclaration?_eq_none_iff (cs : List Char) : readDeclaration? cs = none ↔ Faulty cs := by
  constructor
  · intro skipped
    by_cases colon : ':' ∈ cs
    · obtain ⟨name, value, rfl, plain⟩ := List.eq_append_cons_of_mem colon
      refine .inr ⟨name, value, rfl, plain, ?_⟩
      rw [readDeclaration?_colon plain] at skipped
      split at skipped
      · rename_i blank
        exact Bool.or_eq_true_iff.mp blank
      · cases skipped
    · exact .inl colon
  · rintro (plain | ⟨name, value, rfl, plain, blank⟩)
    · exact readDeclaration?_plain plain
    · rw [readDeclaration?_colon plain, if_pos (Bool.or_eq_true_iff.mpr blank)]

theorem declaration_sound {cs : List Char} {entry : String × String}
    (read : readDeclaration? cs = some entry) :
    entry.1 ≠ "" ∧ entry.2 ≠ "" ∧ Text.withoutOuterBlanks entry.2 = entry.2 ∧
      ∀ c ∈ entry.2.toList, c ∈ cs := by
  have colon : ':' ∈ cs := by
    by_contra plain
    rw [readDeclaration?_plain plain] at read
    cases read
  obtain ⟨name, value, rfl, plain⟩ := List.eq_append_cons_of_mem colon
  rw [readDeclaration?_colon plain] at read
  split at read
  · cases read
  · rename_i filled
    simp only [Bool.or_eq_true, not_or] at filled
    cases read
    refine ⟨?_, ?_, ?_, ?_⟩
    · rw [Ne, String.ofList_eq_empty_iff, keyOf_eq_nil_iff, Text.trim_eq_nil_iff]
      exact filled.1
    · rw [Ne, String.ofList_eq_empty_iff, Text.trim_eq_nil_iff]
      exact filled.2
    · rw [Text.withoutOuterBlanks, String.toList_ofList, Text.trim_trim]
    · intro c member
      rw [String.toList_ofList] at member
      have inside := Text.mem_of_mem_trim member
      simp [inside]

theorem parse_once (style : String) : (Table.keys (parse style)).Nodup := Table.ofPairs_once _

-- A value as a style text can hold it: not empty, and without semicolons and outer blanks.
structure IsValue (text : String) : Prop where
  filled : text ≠ ""
  solid : ';' ∉ text.toList
  trimmed : Text.withoutOuterBlanks text = text

instance (text : String) : Decidable (IsValue text) :=
  decidable_of_iff (text ≠ "" ∧ ';' ∉ text.toList ∧ Text.withoutOuterBlanks text = text)
    ⟨fun ⟨filled, solid, trimmed⟩ => ⟨filled, solid, trimmed⟩,
      fun value => ⟨value.filled, value.solid, value.trimmed⟩⟩

theorem parse_sound (style : String) : ∀ entry ∈ parse style, entry.1 ≠ "" ∧ IsValue entry.2 := by
  refine Table.forall_ofPairs fun entry member => ?_
  obtain ⟨cs, piece, read⟩ := List.mem_filterMap.mp member
  obtain ⟨key, value, trimmed, inside⟩ := declaration_sound read
  refine ⟨key, value, fun cut => ?_, trimmed⟩
  have solid := Text.solid_of_piece piece ';' (inside ';' cut)
  simp at solid

theorem parse_filled (style : String) : ∀ entry ∈ parse style, entry.2 ≠ "" :=
  fun entry member => (parse_sound style entry member).2.filled

theorem declarations_join (front back : List Char) :
    declarations (front ++ ';' :: back) = Table.update (declarations front) (declarations back) := by
  rw [declarations, Text.pieces_join front (by decide), List.filterMap_append, Table.ofPairs_append]
  rfl

theorem uncut {cs : List Char} (solid : ';' ∉ cs) : ∀ c ∈ cs, decide (c = ';') = false := by
  intro c member
  have differ : c ≠ ';' := fun same => solid (same ▸ member)
  simpa using differ

theorem declarations_faulty {cs : List Char} (solid : ';' ∉ cs) (faulty : Faulty cs) :
    declarations cs = [] := by
  rw [declarations, Text.pieces_solid (uncut solid),
    List.filterMap_cons_none ((readDeclaration?_eq_none_iff cs).mpr faulty)]
  rfl

theorem parse_append (a b : String) : parse (a ++ ";" ++ b) = Table.update (parse a) (parse b) := by
  have whole : (a ++ ";" ++ b).toList = a.toList ++ ';' :: b.toList := by simp
  rw [parse, whole, declarations_join]
  rfl

-- The declarations of two texts with a semicolon between them are those of the first, overridden by
-- those of the second: the keys of the first keep their places and the values of the second win. So
-- nothing that goes wrong in one declaration touches another one.
theorem parse_composes (a b : String) :
    parse (a ++ ";" ++ b) = Table.update (parse a) (parse b) ∧
    Table.keys (parse (a ++ ";" ++ b)) =
      Table.keys (parse a) ++ (Table.keys (parse b)).filter (fun key => key ∉ Table.keys (parse a)) ∧
    (∀ key, Table.get? (parse (a ++ ";" ++ b)) key =
      (Table.get? (parse b) key).or (Table.get? (parse a) key)) ∧
    (∀ d : String, ';' ∉ d.toList → Faulty d.toList →
      parse (a ++ ";" ++ d ++ ";" ++ b) = parse (a ++ ";" ++ b)) ∧
    ∀ entry ∈ parse a, entry.1 ≠ "" ∧ IsValue entry.2 := by
  refine ⟨parse_append a b, ?_, fun key => ?_, fun d solid faulty => ?_, parse_sound a⟩
  · rw [parse_append, Table.keys_update _ (parse_once b)]
  · rw [parse_append, Table.get?_update _ _ (parse_once b)]
  · have nothing : parse d = [] := declarations_faulty solid faulty
    rw [parse_append, parse_append a d, nothing, Table.update_nil, ← parse_append]

theorem colours_compose :
    Faulty " : lost".toList ∧
      parse ("color: red; margin: 0" ++ ";" ++ " : lost" ++ ";" ++ "COLOR : url(a:b)") =
        [("color", "url(a:b)"), ("margin", "0")] := by
  have faulty : Faulty " : lost".toList := .inr ⟨[' '], " lost".toList, by decide, by decide, .inl rfl⟩
  refine ⟨faulty, ?_⟩
  rw [(parse_composes "color: red; margin: 0" "COLOR : url(a:b)").2.2.2.1 " : lost" (by decide) faulty]
  decide +kernel

end Style
end SemanticMarkup
