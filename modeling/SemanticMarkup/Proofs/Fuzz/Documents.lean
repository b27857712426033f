import SemanticMarkup.Proofs.Fuzz.Streams

namespace SemanticMarkup.Fuzz
open Gen
variable {S : Type} [RandomSource S]

-- What documents are made of comes out the same from states that are alike, small parts first.

theorem steady_word (shortest longest : Int) : Steady (word shortest longest : Gen S String) :=
  (steady_several _ _ (steady_choose _ _)).bind fun _ => steady_pure _

theorem steady_styleText : Steady (styleText : Gen S String) :=
  (steady_several _ _ (steady_choose _ _)).bind fun _ => steady_pure _

theorem steady_attributeText : Steady (attributeText : Gen S String) := by
  refine (steady_choose _ _).bind fun name => ?_
  -- Each kind of value goes on in the same way.
  refine .ite (steady_styleText.bind fun value => ?_) (.ite ((steady_word _ _).bind fun _ =>
    (steady_choose _ _).bind fun value => ?_) ((steady_word _ _).bind fun value => ?_))
  all_goals exact (steady_choose _ _).bind fun _ => steady_pure _

theorem steady_tagName : Steady (tagName : Gen S String) := by
  refine steady_oneOf _ ?_
  simp only [List.forall_mem_cons]
  exact ⟨steady_choose _ _, steady_choose _ _, steady_choose _ _, steady_choose _ _,
    (steady_choose _ _).bind fun _ => steady_pure _, steady_word _ _, nofun⟩

theorem steady_text : Steady (text : Gen S String) := by
  refine steady_oneOf _ ?_
  simp only [List.forall_mem_cons]
  exact ⟨steady_word _ _, (steady_word _ _).bind fun _ => steady_pure _, steady_choose _ _,
    (steady_several _ _ (steady_choose _ _)).bind fun _ => steady_pure _,
    (steady_word _ _).bind fun _ => steady_pure _,
    (steady_between _ _).bind fun _ => steady_pure _,
    (steady_between _ _).bind fun _ => steady_pure _, steady_pure _, steady_pure _, nofun⟩

theorem steady_nested (levels : Nat) : Steady (nested levels : Gen S String) := by
  induction levels with
  | zero => exact steady_text
  | succ levels ih =>
    refine (steady_chance 300).bind fun _ => .ite steady_text ?_
    refine steady_tagName.bind fun tag => (steady_several _ _ steady_attributeText).bind fun _ => ?_
    refine (steady_several _ _ ih).bind fun _ => (steady_chance 200).bind fun _ => ?_
    refine .ite (steady_pure _) ((steady_chance 100).bind fun _ => ?_)
    exact .ite (steady_tagName.bind fun _ => steady_pure _) (steady_pure _)

theorem steady_formattingRun : Steady (formattingRun : Gen S String) :=
  (steady_choose _ _).bind fun _ => (steady_choose _ _).bind fun _ =>
    (steady_choose _ _).bind fun _ => steady_choose _ _

theorem steady_listChild {inner : Gen S String} (each : Steady inner) : Steady (listChild inner) := by
  refine (steady_word _ _).bind fun _ => (steady_word _ _).bind fun _ => ?_
  refine steady_formattingRun.bind fun _ => (steady_word _ _).bind fun _ => ?_
  refine (steady_chance 300).bind fun _ => ?_
  exact .ite (each.bind fun _ => steady_choose _ _) ((steady_pure _).bind fun _ => steady_choose _ _)

theorem steady_listOf {child : Gen S String} (each : Steady child) : Steady (listOf child) :=
  (steady_choose _ _).bind fun _ => (steady_several _ _ each).bind fun _ => steady_pure _

theorem steady_listWithin (levels : Nat) : Steady (listWithin levels : Gen S String) := by
  induction levels with
  | zero => exact steady_pure "x"
  | succ levels ih => exact steady_listOf (steady_listChild ih)

theorem steady_row : Steady (row : Gen S String) := by
  refine (steady_several _ _ ?_).bind fun _ => steady_pure _
  exact (steady_choose _ _).bind fun _ => (steady_word _ _).bind fun _ => steady_pure _

theorem steady_table : Steady (table : Gen S String) := by
  refine (steady_between _ _).bind fun _ => (steady_sample _ _).bind fun kinds => ?_
  refine (steady_mapM (fun _ => ?_) kinds).bind fun _ => steady_pure _
  exact (steady_several _ _ steady_row).bind fun _ => steady_pure _

theorem steady_image : Steady (image : Gen S String) := by
  refine (steady_several _ _ steady_attributeText).bind fun _ => (steady_chance 700).bind fun _ => ?_
  -- With a source or without one, the attributes are brought into some order.
  refine .ite ((steady_word _ _).bind fun _ => (steady_pure _).bind fun _ => ?_)
    ((steady_pure _).bind fun _ => ?_)
  all_goals
    exact (steady_shuffled _).bind fun _ => (steady_word _ _).bind fun _ =>
      (steady_choose _ _).bind fun _ => steady_pure _

theorem steady_document : Steady (document : Gen S String) := by
  refine (steady_several _ _ (steady_oneOf _ ?_)).bind fun _ => steady_pure _
  simp only [List.forall_mem_cons]
  exact ⟨steady_nested 8, steady_nested 8, steady_formattingRun, steady_listWithin mostLevels,
    steady_table, steady_image, steady_text, nofun⟩

end SemanticMarkup.Fuzz
