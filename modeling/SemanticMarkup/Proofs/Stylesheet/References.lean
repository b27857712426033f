import Mathlib.Data.List.TakeWhile
import SemanticMarkup.Proofs.Table
import SemanticMarkup.Stylesheet.Palette

namespace SemanticMarkup.Stylesheet

def mention (name : String) : List Char := "var(".toList ++ name.toList ++ [')']

-- A reference, by what follows the beginning that all variables have.
def reference (name : List Char) : List Char := referenceStart ++ name ++ [')']

def IsName (name : List Char) : Prop := name ≠ [] ∧ ∀ c ∈ name, isNameChar c = true

instance (name : List Char) : Decidable (IsName name) :=
  decidable_of_iff ((!name.isEmpty && name.all isNameChar) = true) (by simp [IsName])

def shown (colours : Table String) (name : List Char) : List Char :=
  match Table.get? colours (.ofList name) with
  | some colour => colour.toList
  | none => reference name

theorem after?_eq_some_iff {beginning cs rest : List Char} :
    after? beginning cs = some rest ↔ cs = beginning ++ rest := by
  induction beginning generalizing cs with
  | nil => simp [after?, eq_comm]
  | cons b beginning ih =>
    cases cs with
    | nil => simp [after?]
    | cons c cs =>
      rw [after?]
      split
      · rename_i same
        rw [ih, List.cons_append, List.cons.injEq]
        exact ⟨fun whole => ⟨same.symm, whole⟩, fun whole => whole.2⟩
      · rename_i differ
        simp [Ne.symm differ]

theorem reference?_eq_some_iff {cs name rest : List Char} :
    reference? cs = some (name, rest) ↔ cs = reference name ++ rest ∧ IsName name := by
  constructor
  · intro found
    obtain ⟨tail, begun, found⟩ := Option.bind_eq_some_iff.mp found
    have whole := after?_eq_some_iff.mp begun
    have cut : tail.takeWhile isNameChar ++ tail.dropWhile isNameChar = tail :=
      List.takeWhile_append_dropWhile
    dsimp only at found
    split at found
    · rename_i later ends
      split at found
      · cases found
      · rename_i filled
        cases found
        refine ⟨?_, by simpa using filled, fun c member => List.mem_takeWhile_imp member⟩
        rw [ends] at cut
        rw [whole, reference, List.append_assoc, List.append_assoc, List.singleton_append, cut]
    · cases found
  · rintro ⟨rfl, filled, plain⟩
    have whole : reference name ++ rest = referenceStart ++ (name ++ ')' :: rest) := by simp [reference]
    have close : ¬isNameChar ')' = true := by decide
    have taken : (name ++ ')' :: rest).takeWhile isNameChar = name := by
      rw [List.takeWhile_append_of_pos plain, List.takeWhile_cons_of_neg close, List.append_nil]
    have left : (name ++ ')' :: rest).dropWhile isNameChar = ')' :: rest := by
      rw [List.dropWhile_append_of_pos plain, List.dropWhile_cons_of_neg close]
    rw [reference?, after?_eq_some_iff.mpr whole, Option.bind_some]
    dsimp only
    rw [left, taken]
    simpa using filled

theorem resolve_reference (colours : Table String) {name : List Char} (named : IsName name)
    (rest : List Char) :
    resolve colours (reference name ++ rest) = shown colours name ++ resolve colours rest := by
  have found : reference? (reference name ++ rest) = some (name, rest) :=
    reference?_eq_some_iff.mpr ⟨rfl, named⟩
  rw [resolve]
  split
  · rename_i other later there
    rw [found] at there
    cases there
    rfl
  · rename_i none
    rw [found] at none
    cases none

theorem resolve_cons (colours : Table String) {c : Char} {rest : List Char}
    (none : reference? (c :: rest) = none) :
    resolve colours (c :: rest) = c :: resolve colours rest := by
  rw [resolve]
  split
  · rename_i found
    rw [none] at found
    cases found
  · rfl

theorem apart_of_references {name other front back rest after : List Char} (plain : IsName name)
    (inside : front ≠ []) (behind : back ≠ []) (cut : reference name = front ++ back)
    (begins : back ++ rest = reference other ++ after) : False := by
  have bracket : '(' ∉ "--mkn-".toList ++ name ++ [')'] := by
    intro member
    have among : '(' ∈ name := by simpa using member
    exact absurd (plain.2 '(' among) (by decide)
  obtain ⟨tail, whole, absent⟩ : ∃ tail,
      reference name = 'v' :: 'a' :: 'r' :: '(' :: tail ∧ '(' ∉ tail :=
    ⟨_, rfl, bracket⟩
  obtain ⟨later, begun⟩ : ∃ later, reference other ++ after = 'v' :: 'a' :: 'r' :: '(' :: later :=
    ⟨_, rfl⟩
  -- The end of the one is long enough to hold the bracket of the other.
  obtain ⟨more, long⟩ : ∃ more, back = 'v' :: 'a' :: 'r' :: '(' :: more := by
    obtain rfl | ⟨short, last, rfl⟩ := List.eq_nil_or_concat back
    · exact absurd rfl behind
    · rw [List.concat_eq_append, reference, ← List.append_assoc] at cut
      have close : [')'] = [last] := (List.append_inj' cut rfl).2
      cases close
      rw [begun, List.concat_eq_append] at begins
      match short with
      | [] | [_] | [_, _] | [_, _, _] => simp at begins
      | _ :: _ :: _ :: _ :: more =>
        simp only [List.cons_append, List.cons.injEq] at begins
        obtain ⟨rfl, rfl, rfl, rfl, _⟩ := begins
        exact ⟨more ++ [')'], by simp⟩
  subst long
  rw [whole] at cut
  match front with
  | [] => exact inside rfl
  | [_] | [_, _] | [_, _, _] => simp at cut
  | _ :: _ :: _ :: _ :: before =>
    simp only [List.cons_append, List.cons.injEq] at cut
    rw [cut.2.2.2.2] at absent
    simp at absent

theorem resolve_append (colours : Table String) {name : List Char} (named : IsName name)
    (before after : List Char) :
    resolve colours (before ++ reference name ++ after) =
      resolve colours before ++ shown colours name ++ resolve colours after := by
  fun_induction resolve colours before with
  | case1 cs other rest found ih =>
    obtain ⟨rfl, plain⟩ := reference?_eq_some_iff.mp found
    have whole : reference other ++ rest ++ reference name ++ after =
        reference other ++ (rest ++ reference name ++ after) := by simp
    rw [whole, resolve_reference colours plain, ih, ← List.append_assoc, ← List.append_assoc]
    rfl
  | case2 =>
    rw [List.nil_append, resolve_reference colours named, List.nil_append]
  | case3 c rest none ih =>
    have here : reference? (c :: (rest ++ reference name ++ after)) = Option.none := by
      refine Option.eq_none_iff_forall_ne_some.mpr fun ⟨other, later⟩ found => ?_
      obtain ⟨whole, plain⟩ := reference?_eq_some_iff.mp found
      have split : (c :: rest) ++ (reference name ++ after) = reference other ++ later := by
        rw [← whole]
        simp
      rcases List.append_eq_append_iff.mp split with ⟨back, inside, begins⟩ | ⟨back, inside, _⟩
      · obtain rfl | behind := eq_or_ne back []
        · have ends : reference? (c :: rest) = some (other, []) :=
            reference?_eq_some_iff.mpr ⟨by simpa using inside.symm, plain⟩
          rw [none] at ends
          cases ends
        · exact apart_of_references plain (List.cons_ne_nil c rest) behind inside begins.symm
      · have earlier : reference? (c :: rest) = some (other, back) :=
          reference?_eq_some_iff.mpr ⟨inside, plain⟩
        rw [none] at earlier
        cases earlier
    rw [List.cons_append, List.cons_append, resolve_cons colours here, ih]
    rfl

def Refers (p : Palette) (cs : List Char) : Prop :=
  ∃ name ∈ Table.keys p.allVariables, mention name <:+: cs

-- A colour begins with what no reference has, and has nothing that a reference begins with.
def IsColour (colour : List Char) : Prop := colour.head? = some '#' ∧ 'v' ∉ colour

instance (colour : List Char) : Decidable (IsColour colour) :=
  inferInstanceAs (Decidable (colour.head? = some '#' ∧ 'v' ∉ colour))

theorem colours_sound (p : Palette) :
    (Table.keys p.colours).Nodup ∧
      ∀ entry ∈ p.colours, IsName entry.1.toList ∧ IsColour entry.2.toList := by
  cases p <;> decide +kernel

theorem mention_fullName (name : String) : mention (Palette.fullName name) = reference name.toList := by
  rw [mention, Palette.fullName, String.toList_append]
  rfl

theorem palette_entry (p : Palette) {entry : String × String} (member : entry ∈ p.allVariables) :
    ∃ name : List Char, mention entry.1 = reference name ∧ IsName name ∧
      shown p.colours name = entry.2.toList ∧ IsColour entry.2.toList := by
  obtain ⟨⟨name, colour⟩, old, rfl⟩ := List.mem_map.mp member
  obtain ⟨once, all⟩ := colours_sound p
  obtain ⟨named, coloured⟩ := all _ old
  have known : Table.get? p.colours name = some colour := Table.get?_of_mem once old
  refine ⟨name.toList, mention_fullName name, named, ?_, coloured⟩
  rw [shown, String.ofList_toList, known]

theorem refers_of_known {p : Palette} {name : List Char} {colour : String}
    (known : Table.get? p.colours (.ofList name) = some colour) (rest : List Char) :
    Refers p (reference name ++ rest) := by
  have member : (Palette.fullName (.ofList name), colour) ∈ p.allVariables :=
    List.mem_map.mpr ⟨_, Table.mem_of_get? known, rfl⟩
  refine ⟨_, List.mem_map_of_mem member, ?_⟩
  rw [mention_fullName, String.toList_ofList]
  exact (List.prefix_append _ _).isInfix

theorem keys_allVariables (p q : Palette) : Table.keys p.allVariables = Table.keys q.allVariables := by
  cases p <;> cases q <;> rfl

theorem resolve_kept {p : Palette} {cs : List Char} (kept : ¬Refers p cs) :
    resolve p.colours cs = cs := by
  fun_induction resolve p.colours cs with
  | case1 cs name rest found ih =>
    obtain ⟨rfl, _⟩ := reference?_eq_some_iff.mp found
    have later : ¬Refers p rest := fun ⟨full, known, inside⟩ =>
      kept ⟨full, known, inside.trans (List.suffix_append _ _).isInfix⟩
    rw [ih later]
    cases known : Table.get? p.colours (.ofList name) with
    | none => rfl
    | some colour => exact absurd (refers_of_known known rest) kept
  | case2 => rfl
  | case3 c rest none ih =>
    have later : ¬Refers p rest := fun ⟨full, known, inside⟩ =>
      kept ⟨full, known, inside.trans (List.suffix_cons c rest).isInfix⟩
    rw [ih later]

theorem infix_of_absent {α : Type} {l before after : List α} {x : α} (some : l ≠ []) (absent : x ∉ l)
    (inside : l <:+: before ++ x :: after) : l <:+: before ∨ l <:+: after := by
  rcases List.infix_append_iff_ne_nil.mp inside with front | back | ⟨_, second, _, none, rfl, _, begins⟩
  · exact .inl front
  · rcases List.infix_cons_iff.mp back with begins | later
    · obtain rfl | ⟨_, rfl, _⟩ := List.prefix_cons_iff.mp begins
      · exact absurd rfl some
      · exact absurd List.mem_cons_self absent
    · exact .inr later
  · obtain rfl | ⟨_, rfl, _⟩ := List.prefix_cons_iff.mp begins
    · exact absurd rfl none
    · exact absurd (List.mem_append_right _ List.mem_cons_self) absent

theorem infix_of_begins {α : Type} {front back rest : List α} {x : α} (absent : x ∉ front)
    (inside : x :: rest <:+: front ++ back) : x :: rest <:+: back := by
  induction front with
  | nil => exact inside
  | cons y front ih =>
    obtain ⟨differ, others⟩ := not_or.mp (List.mem_cons.not.mp absent)
    rcases List.infix_cons_iff.mp inside with begins | later
    · exact absurd (List.cons_prefix_cons.mp begins).1 differ
    · exact ih others later

theorem not_refers_colour {p : Palette} {front colour back : List Char} (before : ¬Refers p front)
    (coloured : IsColour colour) (after : ¬Refers p back) : ¬Refers p (front ++ colour ++ back) := by
  rintro ⟨full, known, inside⟩
  obtain ⟨entry, member, rfl⟩ := List.mem_map.mp known
  obtain ⟨name, same, named, _⟩ := palette_entry p member
  obtain ⟨sign, solid⟩ := coloured
  obtain ⟨digits, rfl⟩ := List.head?_eq_some_iff.mp sign
  have absent : '#' ∉ mention entry.1 := by
    rw [same]
    intro inside
    rcases List.mem_append.mp inside with early | close
    · rcases List.mem_append.mp early with start | among
      · exact absurd start (by decide)
      · exact absurd (named.2 '#' among) (by decide)
    · exact absurd close (by decide)
  rw [List.append_assoc, List.cons_append] at inside
  rcases infix_of_absent (by simp [mention]) absent inside with earlier | later
  · exact before ⟨entry.1, known, earlier⟩
  · have free : 'v' ∉ digits := fun letter => solid (List.mem_cons_of_mem _ letter)
    exact after ⟨entry.1, known, infix_of_begins free later⟩

-- References to variables of the palette give way to their colours until none is left, in whatever
-- order; all that stands between them is kept.
inductive Recoloured (p : Palette) : List Char → List Char → Prop where
  | kept {cs : List Char} (none : ¬Refers p cs) : Recoloured p cs cs
  | replaced {before front after back : List Char} {entry : String × String}
    (known : entry ∈ p.allVariables) (earlier : Recoloured p before front)
    (later : Recoloured p after back) :
    Recoloured p (before ++ mention entry.1 ++ after) (front ++ entry.2.toList ++ back)

theorem resolve_mention {p : Palette} {entry : String × String} (known : entry ∈ p.allVariables)
    (before after : List Char) :
    resolve p.colours (before ++ mention entry.1 ++ after) =
      resolve p.colours before ++ entry.2.toList ++ resolve p.colours after := by
  obtain ⟨name, same, named, colour, _⟩ := palette_entry p known
  rw [same, resolve_append p.colours named, colour]

theorem resolve_recoloured {p : Palette} {cs out : List Char} (recoloured : Recoloured p cs out) :
    resolve p.colours cs = out := by
  induction recoloured with
  | kept none => exact resolve_kept none
  | replaced known _ _ first second => rw [resolve_mention known, first, second]

theorem recoloured_resolve (p : Palette) (cs : List Char) : Recoloured p cs (resolve p.colours cs) := by
  by_cases refers : Refers p cs
  · obtain ⟨full, known, before, after, whole⟩ := refers
    obtain ⟨entry, member, rfl⟩ := List.mem_map.mp known
    subst whole
    rw [resolve_mention member]
    exact .replaced member (recoloured_resolve p before) (recoloured_resolve p after)
  · rw [resolve_kept refers]
    exact .kept refers
termination_by cs.length
decreasing_by
  all_goals
    have lengths := congrArg List.length whole
    simp only [mention, List.length_append, List.length_singleton] at lengths
    omega

theorem Recoloured.settled {p : Palette} {cs out : List Char} (recoloured : Recoloured p cs out) :
    ¬Refers p out := by
  induction recoloured with
  | kept none => exact none
  | replaced known _ _ first second =>
    obtain ⟨_, _, _, _, colour⟩ := palette_entry p known
    exact not_refers_colour first colour second

-- Resolving a text replaces its references to variables of the palette, and nothing else. What comes
-- out refers to no variable of either palette, so that resolving it again changes nothing.
theorem resolved_exact (p : Palette) (text : String) :
    (∀ out, Recoloured p text.toList out ↔ out = (resolved p text).toList) ∧
      ∀ q : Palette, ¬Refers q (resolved p text).toList ∧
        resolved q (resolved p text) = resolved p text := by
  have made := recoloured_resolve p text.toList
  have shown : (resolved p text).toList = resolve p.colours text.toList := String.toList_ofList ..
  rw [shown]
  have only : ∀ out, Recoloured p text.toList out ↔ out = resolve p.colours text.toList :=
    fun out => ⟨fun other => (resolve_recoloured other).symm, fun same => same ▸ made⟩
  refine ⟨only, fun q => ?_⟩
  have none : ¬Refers q (resolve p.colours text.toList) := by
    have settled := made.settled
    rwa [Refers, keys_allVariables p q] at settled
  refine ⟨none, ?_⟩
  rw [resolved, shown, resolve_kept none]
  rfl

end SemanticMarkup.Stylesheet
