import Mathlib.Data.List.DropRight
import SemanticMarkup.Text.Blank

namespace SemanticMarkup.Text

theorem ascii_cases {P : Char → Prop} (all : ∀ n < 0x80, P (Char.ofNat n)) {c : Char}
    (ascii : c.toNat < 0x80) : P c := by
  have one := all c.toNat ascii
  rwa [Char.ofNat_toNat] at one

theorem whole_ne_empty (n : Int) : toString n ≠ "" := by
  cases n with
  | ofNat k => exact Nat.repr_ne_empty
  | negSucc k => simp [toString, Int.repr]

def visible (cs : List Char) : List Char := cs.filter fun c => !isBlank c

theorem visible_append (front back : List Char) :
    visible (front ++ back) = visible front ++ visible back := List.filter_append ..

theorem visible_of_blank {cs : List Char} (blank : allBlank cs = true) : visible cs = [] := by
  refine List.filter_eq_nil_iff.mpr ?_
  intro c member
  simp [List.all_eq_true.mp blank c member]

theorem allBlank_append (front back : List Char) :
    allBlank (front ++ back) = (allBlank front && allBlank back) := List.all_append

theorem not_mem_of_blank {cs : List Char} (blank : allBlank cs = true) {c : Char}
    (seen : isBlank c = false) : c ∉ cs := by
  intro member
  rw [List.all_eq_true.mp blank c member] at seen
  cases seen

theorem allBlank_takeWhile (cs : List Char) : allBlank (cs.takeWhile isBlank) = true := by
  simp [allBlank]

theorem takeWhile_append_trimStart (cs : List Char) :
    cs.takeWhile isBlank ++ trimStart cs = cs := List.takeWhile_append_dropWhile

theorem visible_trimStart (cs : List Char) : visible (trimStart cs) = visible cs := by
  have cut := congrArg visible (takeWhile_append_trimStart cs)
  rwa [visible_append, visible_of_blank (allBlank_takeWhile cs), List.nil_append] at cut

theorem visible_reverse (cs : List Char) : visible cs.reverse = (visible cs).reverse :=
  List.filter_reverse ..

theorem trimEnd_eq (cs : List Char) : trimEnd cs = (trimStart cs.reverse).reverse := rfl

theorem withoutTrailingBlanks_eq (s : String) :
    withoutTrailingBlanks s = .ofList (trimEnd s.toList) := by
  rw [← toList_withoutTrailingBlanks, String.ofList_toList]

theorem visible_trimEnd (cs : List Char) : visible (trimEnd cs) = visible cs := by
  rw [trimEnd_eq, visible_reverse, visible_trimStart, visible_reverse, List.reverse_reverse]

theorem allBlank_trimStart (cs : List Char) : allBlank (trimStart cs) = allBlank cs := by
  have cut := congrArg allBlank (takeWhile_append_trimStart cs)
  rwa [allBlank_append, allBlank_takeWhile, Bool.true_and] at cut

theorem trimStart_append_of_blank {front : List Char} (blank : allBlank front = true)
    (back : List Char) : trimStart (front ++ back) = trimStart back :=
  dropWhile_append_of_all blank

theorem trimStart_append_of_seen {front : List Char} (seen : allBlank front = false)
    (back : List Char) : trimStart (front ++ back) = trimStart front ++ back := by
  have some : trimStart front ≠ [] := by
    rw [Ne, trimStart_eq_nil_iff, seen]
    simp
  rw [trimStart, List.dropWhile_append, if_neg (by simpa [trimStart] using some)]
  rfl

theorem trimEnd_append_of_seen (front : List Char) {back : List Char}
    (seen : allBlank back = false) : trimEnd (front ++ back) = front ++ trimEnd back := by
  have turned : allBlank back.reverse = false := by rw [← seen]; simp [allBlank]
  rw [trimEnd_eq, List.reverse_append, trimStart_append_of_seen turned, List.reverse_append,
    List.reverse_reverse, ← trimEnd_eq]

theorem trimEnd_append_of_blank (front : List Char) {back : List Char} (blank : allBlank back = true) :
    trimEnd (front ++ back) = trimEnd front := by
  have turned : allBlank back.reverse = true := by rw [← blank]; simp [allBlank]
  rw [trimEnd_eq, List.reverse_append, trimStart_append_of_blank turned, ← trimEnd_eq]

theorem allBlank_trimEnd (cs : List Char) : allBlank (trimEnd cs) = allBlank cs := by
  have turned : ∀ cs : List Char, allBlank cs.reverse = allBlank cs := fun cs => by simp [allBlank]
  rw [trimEnd_eq, turned, allBlank_trimStart, turned]

theorem trimStart_cons_of_seen {c : Char} (seen : isBlank c = false) (rest : List Char) :
    trimStart (c :: rest) = c :: rest := List.dropWhile_cons_of_neg (by simp [seen])

theorem trimStart_trimEnd (cs : List Char) : trimStart (trimEnd cs) = trimEnd (trimStart cs) := by
  induction cs with
  | nil => rfl
  | cons c rest ih =>
    cases first : isBlank c with
    | true =>
      have start : trimStart (c :: rest) = trimStart rest := List.dropWhile_cons_of_pos first
      cases blank : allBlank rest with
      | true =>
        have all : allBlank (c :: rest) = true := by
          rw [← List.singleton_append, allBlank_append, blank]
          simp [allBlank, first]
        rw [trimEnd_eq_nil_iff.mpr all, trimStart_eq_nil_iff.mpr all]
        rfl
      | false =>
        have stop : trimEnd (c :: rest) = c :: trimEnd rest := trimEnd_append_of_seen [c] blank
        rw [stop, start, ← ih]
        exact List.dropWhile_cons_of_pos first
    | false =>
      rw [trimStart_cons_of_seen first, ← List.singleton_append]
      cases blank : allBlank rest with
      | true =>
        have alone : trimEnd [c] = [c] := by simp [trimEnd_eq, trimStart_cons_of_seen first]
        rw [trimEnd_append_of_blank [c] blank, alone, trimStart_cons_of_seen first]
      | false => rw [trimEnd_append_of_seen [c] blank]; exact trimStart_cons_of_seen first _

theorem trim_eq_nil_iff {cs : List Char} : trim cs = [] ↔ allBlank cs = true := by
  rw [trim, trimEnd_eq_nil_iff, allBlank_trimStart]

theorem trimStart_trimStart (cs : List Char) : trimStart (trimStart cs) = trimStart cs :=
  List.dropWhile_idempotent isBlank cs

theorem trimEnd_trimEnd (cs : List Char) : trimEnd (trimEnd cs) = trimEnd cs := by
  rw [trimEnd_eq, trimEnd_eq cs, List.reverse_reverse, trimStart_trimStart]

theorem trim_trim (cs : List Char) : trim (trim cs) = trim cs := by
  rw [trim, trim, trimStart_trimEnd, trimStart_trimStart, trimEnd_trimEnd]

theorem trim_solid {cs : List Char} (solid : ∀ c ∈ cs, isBlank c = false) : trim cs = cs := by
  have kept : ∀ ds : List Char, (∀ c ∈ ds, isBlank c = false) → trimStart ds = ds := by
    intro ds seen
    cases ds with
    | nil => rfl
    | cons d rest => exact List.dropWhile_cons_of_neg (by simp [seen d])
  have turned := kept cs.reverse fun c member => solid c (List.mem_reverse.mp member)
  rw [trim, kept cs solid, trimEnd_eq, turned, List.reverse_reverse]

theorem trim_append_of_blank {front : List Char} (blank : allBlank front = true) (back : List Char) :
    trim (front ++ back) = trim back := by
  rw [trim, trimStart_append_of_blank blank, trim]

theorem mem_of_mem_trim {cs : List Char} {c : Char} (member : c ∈ trim cs) : c ∈ cs := by
  rw [trim, trimEnd_eq, List.mem_reverse] at member
  have start := (List.dropWhile_sublist _).subset member
  exact (List.dropWhile_sublist _).subset (List.mem_reverse.mp start)

theorem pieces_solid {cut : Char → Bool} {piece : List Char} (solid : ∀ c ∈ piece, cut c = false) :
    pieces cut piece = [piece] := by
  induction piece with
  | nil => rfl
  | cons c rest ih =>
    rw [pieces, if_neg (by simp [solid c List.mem_cons_self]),
      ih fun d member => solid d (List.mem_cons_of_mem _ member)]

theorem pieces_join {cut : Char → Bool} (front : List Char) {c : Char} (cuts : cut c = true)
    (back : List Char) : pieces cut (front ++ c :: back) = pieces cut front ++ pieces cut back := by
  induction front with
  | nil => exact if_pos cuts
  | cons d more ih =>
    rw [List.cons_append, pieces, pieces, ih]
    split
    · rfl
    · cases first : pieces cut more with
      | nil => exact absurd first (pieces_ne_nil cut more)
      | cons piece rest => rfl

theorem pieces_append {cut : Char → Bool} {piece : List Char} (solid : ∀ c ∈ piece, cut c = false)
    {c : Char} (cuts : cut c = true) (rest : List Char) :
    pieces cut (piece ++ c :: rest) = piece :: pieces cut rest := by
  rw [pieces_join piece cuts, pieces_solid solid, List.singleton_append]

theorem solid_of_piece {cut : Char → Bool} {cs piece : List Char} (member : piece ∈ pieces cut cs) :
    ∀ c ∈ piece, cut c = false := by
  induction cs generalizing piece with
  | nil => simp_all [pieces]
  | cons d more ih =>
    rw [pieces] at member
    split at member
    · rcases List.mem_cons.mp member with rfl | later
      · simp
      · exact ih later
    · rename_i whole
      split at member
      · simp_all
      · rename_i first rest more_eq
        rcases List.mem_cons.mp member with rfl | later
        · intro c inside
          rcases List.mem_cons.mp inside with rfl | behind
          · simpa using whole
          · exact ih (by rw [more_eq]; exact List.mem_cons_self) c behind
        · exact ih (by rw [more_eq]; exact List.mem_cons_of_mem _ later)

theorem words_intercalate {names : List String}
    (solid : ∀ name ∈ names, name ≠ "" ∧ ∀ c ∈ name.toList, isBlank c = false) :
    (words (String.intercalate " " names).toList).map String.ofList = names := by
  have some : ∀ name ∈ names, name.toList ≠ [] := fun name member empty =>
    (solid name member).1 (String.toList_eq_nil_iff.mp empty)
  induction names with
  | nil => rfl
  | cons name rest ih =>
    have first := (solid name List.mem_cons_self).2
    have others := ih (fun other member => solid other (List.mem_cons_of_mem _ member))
      fun other member => some other (List.mem_cons_of_mem _ member)
    by_cases last : rest = []
    · subst last
      simp [words, pieces_solid first, some name]
    · have whole : (String.intercalate " " (name :: rest)).toList =
          name.toList ++ ' ' :: (String.intercalate " " rest).toList := by
        rw [String.intercalate_cons_of_ne_nil last]
        simp
      rw [words] at others
      rw [whole, words, pieces_append first (by decide), List.filter_cons,
        if_pos (by simpa using some name List.mem_cons_self), List.map_cons, others,
        String.ofList_toList]

def opensBroken (cs : List Char) : Bool := (cs.takeWhile isBlank).contains '\n'
def closesBroken (cs : List Char) : Bool := opensBroken cs.reverse

def lineEnds (cs : List Char) : Nat := cs.count '\n'

theorem lineEnds_append (front back : List Char) :
    lineEnds (front ++ back) = lineEnds front + lineEnds back := List.count_append

theorem lineEnds_trimStart_le (cs : List Char) : lineEnds (trimStart cs) ≤ lineEnds cs := by
  have cut := congrArg lineEnds (takeWhile_append_trimStart cs)
  rw [lineEnds_append] at cut
  omega

theorem lineEnds_trimStart_eq_iff (cs : List Char) :
    lineEnds (trimStart cs) = lineEnds cs ↔ opensBroken cs = false := by
  have cut := congrArg lineEnds (takeWhile_append_trimStart cs)
  rw [lineEnds_append] at cut
  have none : lineEnds (cs.takeWhile isBlank) = 0 ↔ opensBroken cs = false := by
    simp [lineEnds, opensBroken, List.count_eq_zero]
  rw [← none]
  omega

theorem lineEnds_reverse (cs : List Char) : lineEnds cs.reverse = lineEnds cs := by
  simp [lineEnds]

theorem lineEnds_trimEnd_le (cs : List Char) : lineEnds (trimEnd cs) ≤ lineEnds cs := by
  have bound := lineEnds_trimStart_le cs.reverse
  rwa [trimEnd_eq, lineEnds_reverse, ← lineEnds_reverse cs]

theorem lineEnds_trimEnd_eq_iff (cs : List Char) :
    lineEnds (trimEnd cs) = lineEnds cs ↔ closesBroken cs = false := by
  rw [trimEnd_eq, lineEnds_reverse, ← lineEnds_reverse cs]
  exact lineEnds_trimStart_eq_iff cs.reverse

theorem closesBroken_append {front back : List Char} (seen : allBlank back = false) :
    closesBroken (front ++ back) = closesBroken back := by
  have stop : (back.reverse.takeWhile isBlank).length ≠ back.reverse.length := by
    intro long
    have whole : back.reverse.takeWhile isBlank = back.reverse :=
      (List.takeWhile_prefix isBlank).eq_of_length long
    have blank : allBlank back.reverse = true := by rw [← whole]; exact allBlank_takeWhile _
    rw [show allBlank back.reverse = allBlank back by simp [allBlank], seen] at blank
    cases blank
  simp only [closesBroken, opensBroken, List.reverse_append]
  rw [List.takeWhile_append, if_neg stop]

theorem closesBroken_trimStart {cs : List Char} (seen : allBlank cs = false) :
    closesBroken (trimStart cs) = closesBroken cs := by
  have inner : allBlank (trimStart cs) = false := by rw [allBlank_trimStart, seen]
  have appended : closesBroken (cs.takeWhile isBlank ++ trimStart cs) = closesBroken (trimStart cs) :=
    closesBroken_append inner
  rw [takeWhile_append_trimStart] at appended
  exact appended.symm

theorem closesBroken_of_blank (front : List Char) {back : List Char} (blank : allBlank back = true)
    (broken : '\n' ∈ back) : closesBroken (front ++ back) = true := by
  have kept : ∀ c ∈ back.reverse, isBlank c = true := by
    intro c member
    exact List.all_eq_true.mp blank c (List.mem_reverse.mp member)
  simp only [closesBroken, opensBroken, List.reverse_append]
  rw [List.takeWhile_append_of_pos kept]
  simp [broken]

theorem opensBroken_of_blank {cs : List Char} (blank : allBlank cs = true) (broken : '\n' ∈ cs) :
    opensBroken cs = true := by
  have whole : cs.takeWhile isBlank = cs := by
    have cut := takeWhile_append_trimStart cs
    rwa [trimStart_eq_nil_iff.mpr blank, List.append_nil] at cut
  simp only [opensBroken, whole]
  simpa using broken

end SemanticMarkup.Text
