import SemanticMarkup.Proofs.Conversion.Meaning
import SemanticMarkup.Proofs.Merge.Marks

namespace SemanticMarkup

-- A name that the table of tags finds as it stands: in lower case, with no blanks around it.
def Tag.Spelled (name : String) : Prop := String.ofList (Text.lower (Text.trim name.toList)) = name

instance (name : String) : Decidable (Tag.Spelled name) :=
  inferInstanceAs (Decidable (String.ofList (Text.lower (Text.trim name.toList)) = name))

theorem Tag.spelled_of_named {name : String} {m : TagMapping} (named : Tag.named? name = some m) :
    Tag.Spelled name ∧ name ≠ "" := by
  have all : (Table.keys Tag.mappings).all (fun key =>
      String.ofList (Text.lower (Text.trim key.toList)) == key && key != "") = true := by decide +kernel
  have key : name ∈ Table.keys Tag.mappings :=
    List.mem_map_of_mem (f := Prod.fst) (Table.mem_of_get? named)
  simpa [Tag.Spelled] using List.all_eq_true.mp all name key

theorem Tag.named_of_spelled {name : String} {m : TagMapping} (spelled : Tag.Spelled name)
    (mapped : Tag.mapping? name = some m) : Tag.named? name = some m := by
  unfold Tag.mapping? at mapped
  split at mapped
  · cases mapped
  · rwa [spelled] at mapped

theorem Tag.mapping_of_named {name : String} {m : TagMapping} (named : Tag.named? name = some m) :
    Tag.mapping? name = some m := by
  obtain ⟨spelled, some⟩ := Tag.spelled_of_named named
  rw [Tag.mapping?, if_neg some, spelled, named]

namespace Stylesheet

theorem intercalate_of_mem (between : String) {texts : List String} {text : String}
    (member : text ∈ texts) : ∃ front back, between.intercalate texts = front ++ text ++ back := by
  induction texts with
  | nil => cases member
  | cons first rest ih =>
    by_cases last : rest = []
    · subst last
      rw [List.mem_singleton.mp member]
      exact ⟨"", "", by simp⟩
    · rw [String.intercalate_cons_of_ne_nil last]
      rcases List.mem_cons.mp member with rfl | later
      · exact ⟨"", between ++ between.intercalate rest, by simp [String.append_assoc]⟩
      · obtain ⟨front, back, whole⟩ := ih later
        exact ⟨first ++ between ++ front, back, by simp [whole, String.append_assoc]⟩

-- Under a root class, the stylesheet has the rule that gives a class this style.
def Ruled (root name : String) (style : Table Value) : Prop :=
  ∃ front back, text root =
    front ++ block ("." ++ root ++ " ." ++ name) (styleText style "  ") ++ back

theorem ruled_of_mem {rule : Rule} (member : rule ∈ rules) (root : String) :
    Ruled root rule.className rule.style := by
  obtain ⟨front, back, whole⟩ := intercalate_of_mem "\n\n" (List.mem_map_of_mem (f := ruleText root) member)
  refine ⟨header root ++ "\n\n" ++ front, back ++ "\n", ?_⟩
  unfold text
  rw [whole, ruleText]
  simp only [String.append_assoc]

theorem ruled_className {tag name : String} {m : TagMapping} (named : Tag.named? tag = some m)
    (given : className? tag = some name) (root : String) : Ruled root name m.defaultStyle := by
  have rule : (⟨name, m.defaultStyle⟩ : Rule) ∈ elementRules :=
    List.mem_filterMap.mpr ⟨(tag, m), Table.mem_of_get? named, by rw [given]; rfl⟩
  exact ruled_of_mem (List.mem_append_left _ rule) root

theorem ruled_textClassName {tag name : String} {m : TagMapping} (named : Tag.named? tag = some m)
    (given : textClassName? tag = some name) (root : String) :
    Ruled root name (Style.inheritable m.defaultStyle) := by
  have rule : (⟨name, Style.inheritable m.defaultStyle⟩ : Rule) ∈ textRules :=
    List.mem_filterMap.mpr ⟨(tag, m), Table.mem_of_get? named, by rw [given]; rfl⟩
  exact ruled_of_mem (List.mem_append_right _ rule) root

theorem className_of_named {tag : String} {m : TagMapping} (named : Tag.named? tag = some m) :
    className? tag = if m.defaultStyle.isEmpty then none else some ("mkn-" ++ tag) := by
  rw [className?, named]
  rfl

theorem textClassName_of_named {tag : String} {m : TagMapping} (named : Tag.named? tag = some m) :
    textClassName? tag =
      if (Style.inheritable m.defaultStyle).isEmpty then none else some ("mkn-" ++ tag ++ "-text") := by
  rw [textClassName?, named]
  rfl

theorem textClassName_solid {tag name : String} (given : textClassName? tag = some name) :
    ∀ c ∈ name.toList, Text.isBlank c = false := by
  have solid : ((Table.keys Tag.mappings).filterMap textClassName?).all (fun text =>
      text.toList.all fun c => !Text.isBlank c) = true := by decide +kernel
  cases named : Tag.named? tag with
  | none =>
    rw [textClassName?, named] at given
    cases given
  | some m =>
    have key : tag ∈ Table.keys Tag.mappings :=
      List.mem_map_of_mem (f := Prod.fst) (Table.mem_of_get? named)
    have among := List.mem_filterMap.mpr ⟨tag, key, given⟩
    have one := List.all_eq_true.mp solid name among
    intro c member
    simpa using List.all_eq_true.mp one c member

end Stylesheet
end SemanticMarkup
