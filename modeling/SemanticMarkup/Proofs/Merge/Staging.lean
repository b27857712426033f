import SemanticMarkup.Node.Attributes
import SemanticMarkup.Proofs.Merge.Joining
import SemanticMarkup.Proofs.Merge.Normal

namespace SemanticMarkup
open Text

namespace Node
open TextLeaf
variable {xs ys : List Node}

def Cut (xs ys : List Node) : Prop := ∀ a ∈ xs.getLast?, ∀ b ∈ ys.head?, joins a b = false

def shade (n : Node) : Option (String → Option Value) := n.marks?.map Marks.held

theorem mergeFrom_append {run : Option OpenRun} {xs ys : List Node} (cut : Cut (mergeFrom run xs) ys) :
    mergeFrom run (xs ++ ys) = mergeFrom run xs ++ mergeFrom none ys := by
  have shorter : ∀ {n : Node} {nodes : List Node}, Cut (n :: nodes) ys → Cut nodes ys := by
    intro n nodes cut a ends
    refine cut a ?_
    rw [List.getLast?_cons, Option.mem_def.mp ends]
    rfl
  fun_induction mergeFrom run xs with
  | case1 => rfl
  | case2 r => exact mergeFrom_closed (cut _ rfl)
  | case3 leaf rest ih => exact ih cut
  | case4 r leaf rest same ih =>
    rw [List.cons_append, mergeFrom, if_pos same]
    exact ih cut
  | case5 r leaf rest other ih =>
    rw [List.cons_append, mergeFrom, if_neg other, ih (shorter cut)]
    rfl
  | case6 n rest other ih =>
    rw [List.cons_append, mergeFrom_of_other other, ih (shorter cut)]
    rfl
  | case7 r n rest other ih =>
    rw [List.cons_append, mergeFrom_of_other other, ih (shorter (shorter cut))]
    rfl

theorem map_getLast?_cons {β : Type} {f : Node → β} {n : Node} {xs ys : List Node}
    (same : xs.getLast?.map f = ys.getLast?.map f) :
    (n :: xs).getLast?.map f = (n :: ys).getLast?.map f := by
  rw [List.getLast?_cons, List.getLast?_cons]
  cases one : xs.getLast? <;> cases other : ys.getLast? <;> simp_all

theorem getLast?_mergeFrom {run : Option OpenRun} {xs : List Node} (begun : ∀ r ∈ run, r.leaf.Typed)
    (typed : Typed xs) :
    (mergeFrom run xs).getLast?.map shade = (opening run ++ xs).getLast?.map shade := by
  fun_induction mergeFrom run xs with
  | case1 => rfl
  | case2 r => rfl
  | case3 leaf rest ih =>
    exact ih (by simpa [OpenRun.start] using typed leaf (by simp)) (typed.of_subset (by simp))
  | case4 r leaf rest same ih =>
    have old := begun r rfl
    have new := typed leaf (by simp)
    have held : Marks.held r.leaf.marks = Marks.held leaf.marks := (old.sameMarks_iff new).mp same
    rw [ih (by simpa using old.join new) (typed.of_subset (by simp))]
    cases rest with
    | nil => exact congrArg (some ∘ some) held
    | cons => rfl
  | case5 r leaf rest other ih =>
    exact map_getLast?_cons
      (ih (by simpa [OpenRun.start] using typed leaf (by simp)) (typed.of_subset (by simp)))
  | case6 n rest other ih =>
    exact map_getLast?_cons (ih (by simp) (typed.of_subset (by simp)))
  | case7 r n rest other ih =>
    exact map_getLast?_cons (map_getLast?_cons (ih (by simp) (typed.of_subset (by simp))))

theorem head?_merged (ys : List Node) : (merged ys).head?.map marks? = ys.head?.map marks? := by
  cases ys with
  | nil => rfl
  | cons n rest =>
    rcases n.text_or_other with ⟨leaf, rfl⟩ | other
    · have begins := (gated_mergeFrom (some (.start leaf)) rest).1 _ rfl
      rw [List.head?_map] at begins
      exact begins
    · rw [merged, mergeFrom_of_other other]
      rfl

theorem typed_merged {xs : List Node} (typed : Typed xs) : Typed (merged xs) :=
  mergeFrom_texts (fun _ _ old new _ => old.join new) (by simp) typed

theorem joins_of_shade {a b n : Node} (left : Typed [a]) (middle : Typed [b]) (right : Typed [n])
    (same : a.shade = b.shade) : joins a n = joins b n := by
  cases a with
  | text x =>
    cases b with
    | text y =>
      have held : Marks.held x.marks = Marks.held y.marks := Option.some.inj same
      have first := left x (by simp)
      have second := middle y (by simp)
      exact joins_congr first second (fun leaf here => right leaf (by simp [here]))
        ((first.sameMarks_iff second).mpr held)
    | _ => cases same
  | _ =>
    cases b with
    | text y => cases same
    | _ => rfl

theorem cut_merged_left {xs ys : List Node} (typed : Typed xs) (other : Typed ys) (cut : Cut xs ys) :
    Cut (merged xs) ys := by
  intro a ends b begins
  have whole : (merged xs).getLast?.map shade = xs.getLast?.map shade :=
    getLast?_mergeFrom (by simp) typed
  rw [Option.mem_def.mp ends] at whole
  obtain ⟨c, old, same⟩ := Option.map_eq_some_iff.mp whole.symm
  rw [← cut c old b begins]
  refine joins_of_shade ?_ ?_ ?_ same.symm
  · exact (typed_merged typed).of_subset (by simpa using List.mem_of_mem_getLast? ends)
  · exact typed.of_subset (by simpa using List.mem_of_mem_getLast? old)
  · exact other.of_subset (by simpa using List.mem_of_mem_head? begins)

theorem cut_merged_right {xs ys : List Node} (cut : Cut xs ys) : Cut xs (merged ys) := by
  intro a ends b begins
  have whole := head?_merged ys
  rw [Option.mem_def.mp begins] at whole
  obtain ⟨c, old, same⟩ := Option.map_eq_some_iff.mp whole.symm
  rw [joins_eq_false_iff, ← same, ← joins_eq_false_iff]
  exact cut a ends c old

theorem merged_around {front back : List Node} {first : TextLeaf} {rest : List TextLeaf}
    (same : ∀ leaf ∈ rest, first.sameMarks leaf = true) (before : Cut (merged front) [.text first])
    (after : Cut [.text first] back) :
    merged (front ++ ((first :: rest).map .text ++ back)) =
      merged front ++ .text (fused first rest) :: merged back := by
  have cut : Cut (mergeFrom none front) ((first :: rest).map .text ++ back) := before
  have closed : ∀ n ∈ back.head?,
      joins (.text (fused first rest)) n = false := by
    intro n begins
    rw [fused, joins_of_marks (marks_foldl_join rest (.start first)) n]
    exact after _ rfl n begins
  have inner : mergeFrom none ((first :: rest).map .text ++ back) =
      .text (fused first rest) :: mergeFrom none back := by
    rw [List.map_cons, List.cons_append, mergeFrom,
      mergeFrom_texts_of_same (r := .start first) same, mergeFrom_closed closed, ← fused]
  rw [merged, mergeFrom_append cut, inner]
  rfl

-- The texts on both sides of the place where two lists meet, if they belong to one run: those of
-- the last run of the first list, and of the first run of the second.
def seam (xs ys : List Node) : List TextLeaf × List TextLeaf :=
  if xs.getLast?.any fun a => ys.head?.any fun b => joins a b then
    (((runs xs).getLastD []).filterMap leaf?, ((runs ys).headD []).filterMap leaf?)
  else ([], [])

theorem cut_of_runs {xs : List Node} {front back : List (List Node)} (whole : runs xs = front ++ back) :
    Cut front.flatten back.flatten := by
  have filled : ∀ block ∈ front ++ back, block ≠ [] := fun block member =>
    List.ne_nil_of_mem_splitBy (by rwa [← whole] at member)
  have chain := List.isChain_getLast_head_splitBy joins xs
  rw [show xs.splitBy joins = front ++ back from whole, List.isChain_append] at chain
  intro a ends b begins
  rcases List.eq_nil_or_concat front with rfl | ⟨blocks, last, rfl⟩
  · cases ends
  cases back with
  | nil => cases begins
  | cons next more =>
    obtain ⟨some, other, apart⟩ := chain.2.2 last (by simp) next rfl
    have tail : last.getLast? = .some a := by
      rw [← ends, List.concat_eq_append, List.flatten_append, List.flatten_singleton]
      exact (List.getLast?_append_of_ne_nil _ some).symm
    have head : next.head? = .some b := by
      rw [← begins, List.flatten_cons]
      exact (List.head?_append_of_ne_nil _ other).symm
    rw [List.getLast?_eq_some_getLast some, Option.some.injEq] at tail
    rw [List.head?_eq_some_head other, Option.some.injEq] at head
    rw [← tail, ← head]
    exact apart

theorem run_of_text {xs : List Node} {run : List Node} {leaf : TextLeaf} (typed : Typed xs)
    (member : run ∈ runs xs) (inside : .text leaf ∈ run) :
    ∃ first rest, run = (first :: rest).map .text ∧ run.filterMap leaf? = first :: rest ∧
      ∀ other ∈ rest, first.sameMarks other = true := by
  have part : run ⊆ xs := by
    intro n here
    rw [← List.flatten_splitBy joins xs]
    exact List.mem_flatten.mpr ⟨run, member, here⟩
  have whole : Run run := .of_chain (typed.of_subset part) (List.ne_nil_of_mem_splitBy member)
    (List.isChain_of_mem_splitBy member)
  cases whole with
  | other apart => exact absurd (List.mem_singleton.mp inside).symm (apart leaf)
  | @texts first rest same => exact ⟨first, rest, rfl, filterMap_leaf?_texts (first :: rest), same⟩

-- How two lists meet: they are cut where they do, or a run goes on from the one to the other.
inductive Meeting (xs ys : List Node) : Prop where
  | apart (nothing : seam xs ys = ([], [])) (cut : Cut xs ys)
  | within {front back : List Node} {first next : TextLeaf} {rest more : List TextLeaf}
      (sides : seam xs ys = (first :: rest, next :: more))
      (left : xs = front ++ (first :: rest).map .text) (right : ys = (next :: more).map .text ++ back)
      (before : Cut front [.text first]) (after : Cut [.text next] back)
      (same : ∀ leaf ∈ rest ++ next :: more, first.sameMarks leaf = true)
      (alike : ∀ leaf ∈ more, next.sameMarks leaf = true)

theorem ne_nil_of_mem_runs {nodes run : List Node} (member : run ∈ runs nodes) : run ≠ [] :=
  List.ne_nil_of_mem_splitBy member

theorem flatten_runs (nodes : List Node) : (runs nodes).flatten = nodes := List.flatten_splitBy joins nodes

theorem getLast?_runs {a : Node} (ends : xs.getLast? = some a) :
    ∃ front last, runs xs = front ++ [last] ∧ a ∈ last := by
  have whole := flatten_runs xs
  rcases List.eq_nil_or_concat (runs xs) with none | ⟨front, last, parts⟩
  · rw [none] at whole
    rw [← whole] at ends
    cases ends
  · rw [List.concat_eq_append] at parts
    have member : last ∈ runs xs := by simp [parts]
    have some : last ≠ [] := ne_nil_of_mem_runs member
    refine ⟨front, last, parts, List.mem_of_mem_getLast? ?_⟩
    rw [← whole, parts, List.flatten_append, List.flatten_singleton,
      List.getLast?_append_of_ne_nil _ some] at ends
    exact ends

theorem head?_runs {b : Node} (begins : ys.head? = some b) :
    ∃ next back, runs ys = next :: back ∧ b ∈ next := by
  have whole := flatten_runs ys
  cases parts : runs ys with
  | nil =>
    rw [parts] at whole
    rw [← whole] at begins
    cases begins
  | cons next back =>
    have member : next ∈ runs ys := by simp [parts]
    have some : next ≠ [] := ne_nil_of_mem_runs member
    refine ⟨next, back, rfl, List.mem_of_mem_head? ?_⟩
    rw [← whole, parts, List.flatten_cons, List.head?_append_of_ne_nil _ some] at begins
    exact begins

theorem seam_of_joins {a b : Node} (ends : xs.getLast? = some a) (begins : ys.head? = some b)
    (one : joins a b = true) :
    seam xs ys = (((runs xs).getLastD []).filterMap leaf?, ((runs ys).headD []).filterMap leaf?) := by
  rw [seam, if_pos (by simp [ends, begins, one])]

theorem seam_of_cut (cut : Cut xs ys) : seam xs ys = ([], []) := by
  rw [seam, if_neg]
  intro one
  simp only [Option.any_eq_true] at one
  obtain ⟨a, ends, b, begins, joined⟩ := one
  rw [cut a ends b begins] at joined
  cases joined

theorem held_of_sameMarks {first : TextLeaf} {rest : List TextLeaf}
    (typed : ∀ leaf ∈ first :: rest, leaf.Typed) (same : ∀ leaf ∈ rest, first.sameMarks leaf = true)
    {leaf : TextLeaf} (member : leaf ∈ first :: rest) :
    Marks.held first.marks = Marks.held leaf.marks := by
  rcases List.mem_cons.mp member with rfl | later
  · rfl
  · exact ((typed first (by simp)).sameMarks_iff (typed leaf member)).mp (same leaf later)

theorem Cut.of_marks {a b : TextLeaf} {nodes : List Node} (marks : a.marks = b.marks) :
    (Cut [.text a] nodes → Cut [.text b] nodes) ∧ (Cut nodes [.text a] → Cut nodes [.text b]) := by
  have same : (text a).marks? = (text b).marks? := congrArg Option.some marks
  constructor
  · intro cut n ends m begins
    obtain rfl : text b = n := Option.some.inj ends
    have apart := cut (text a) rfl m begins
    rwa [joins_eq_false_iff, same, ← joins_eq_false_iff] at apart
  · intro cut n ends m begins
    obtain rfl : text b = m := Option.some.inj begins
    have apart := cut n ends (text a) rfl
    rwa [joins_eq_false_iff, same, ← joins_eq_false_iff] at apart

theorem Cut.of_held {a b : TextLeaf} {back : List Node} (cut : Cut [.text a] back) (left : a.Typed)
    (right : b.Typed) (other : Typed back) (held : Marks.held a.marks = Marks.held b.marks) :
    Cut [.text b] back := by
  intro n ends m begins
  cases ends
  rw [← cut _ rfl m begins]
  refine joins_congr right left ?_ ((right.sameMarks_iff left).mpr held.symm)
  rintro leaf rfl
  exact other leaf (List.mem_of_mem_head? begins)

theorem Cut.of_run {first : TextLeaf} {rest : List TextLeaf} {back : List Node}
    (cut : Cut ((first :: rest).map .text) back) (typed : ∀ leaf ∈ first :: rest, leaf.Typed)
    (same : ∀ leaf ∈ rest, first.sameMarks leaf = true) (other : Typed back) :
    Cut [.text first] back := by
  obtain ⟨last, ending⟩ : ∃ last, (first :: rest).getLast? = some last :=
    ⟨_, List.getLast?_eq_some_getLast (by simp)⟩
  have member := List.mem_of_mem_getLast? ending
  have alone : Cut [.text last] back := by
    intro n ends m begins
    cases ends
    refine cut _ ?_ m begins
    rw [List.getLast?_map, ending]
    rfl
  exact alone.of_held (typed last member) (typed first (by simp)) other
    (held_of_sameMarks typed same member).symm

theorem last_run {a : TextLeaf} (typed : Typed xs) (ends : xs.getLast? = some (.text a)) :
    ∃ front first rest, ((runs xs).getLastD []).filterMap leaf? = first :: rest ∧
      xs = front ++ (first :: rest).map .text ∧ a ∈ first :: rest ∧ Cut front [.text first] ∧
        ∀ leaf ∈ rest, first.sameMarks leaf = true := by
  obtain ⟨front, last, parts, inside⟩ := getLast?_runs ends
  obtain ⟨first, rest, rfl, leaves, same⟩ := run_of_text typed (by simp [parts]) inside
  refine ⟨front.flatten, first, rest, ?_, ?_, by simpa using inside, ?_, same⟩
  · rw [parts, List.getLastD_concat, leaves]
  · rw [← flatten_runs xs, parts, List.flatten_append, List.flatten_singleton]
  · intro n ends m begins
    cases begins
    exact cut_of_runs parts n ends _ rfl

theorem first_run {b : TextLeaf} (typed : Typed ys) (begins : ys.head? = some (.text b)) :
    ∃ next more back, ((runs ys).headD []).filterMap leaf? = next :: more ∧
      ys = (next :: more).map .text ++ back ∧ b ∈ next :: more ∧
        Cut ((next :: more).map .text) back ∧ ∀ leaf ∈ more, next.sameMarks leaf = true := by
  obtain ⟨run, back, parts, inside⟩ := head?_runs begins
  obtain ⟨next, more, rfl, leaves, same⟩ := run_of_text typed (by simp [parts]) inside
  refine ⟨next, more, back.flatten, ?_, ?_, by simpa using inside, ?_, same⟩
  · rw [parts, List.headD_cons, leaves]
  · rw [← flatten_runs ys, parts, List.flatten_cons]
  · have cut : Cut [(next :: more).map text].flatten back.flatten := cut_of_runs parts
    rwa [List.flatten_singleton] at cut

theorem meeting (typed : Typed (xs ++ ys)) : Meeting xs ys := by
  by_cases cut : Cut xs ys
  · exact .apart (seam_of_cut cut) cut
  simp only [Cut, not_forall, Bool.not_eq_false] at cut
  obtain ⟨a, ends, b, begins, joined⟩ := cut
  have sides := seam_of_joins ends begins joined
  cases a with
  | text a =>
    cases b with
    | text b =>
      obtain ⟨front, first, rest, left, rfl, inLeft, before, same⟩ :=
        last_run (typed.of_subset (by simp)) ends
      obtain ⟨next, more, back, right, rfl, inRight, after, alike⟩ :=
        first_run (fun leaf member => typed leaf (List.mem_append_right _ member)) begins
      have typedLeft : ∀ leaf ∈ first :: rest, leaf.Typed := fun leaf member =>
        typed leaf (List.mem_append_left _ (List.mem_append_right _ (List.mem_map_of_mem member)))
      have typedRight : ∀ leaf ∈ next :: more, leaf.Typed := fun leaf member =>
        typed leaf (List.mem_append_right _ (List.mem_append_left _ (List.mem_map_of_mem member)))
      have later : Typed back := fun leaf member =>
        typed leaf (List.mem_append_right _ (List.mem_append_right _ member))
      have across : Marks.held first.marks = Marks.held next.marks := by
        rw [held_of_sameMarks typedLeft same inLeft, held_of_sameMarks typedRight alike inRight]
        exact ((typedLeft a inLeft).sameMarks_iff (typedRight b inRight)).mp joined
      rw [left, right] at sides
      refine .within sides rfl rfl before
        (after.of_run typedRight alike later) (fun leaf member => ?_) alike
      rcases List.mem_append.mp member with here | there
      · exact same leaf here
      · refine ((typedLeft first (by simp)).sameMarks_iff (typedRight leaf there)).mpr ?_
        exact across.trans (held_of_sameMarks typedRight alike there)
    | _ => cases joined
  | _ => cases joined

theorem merged_cut (typed : Typed (xs ++ ys)) (cut : Cut xs ys) :
    merged (xs ++ ys) = merged xs ++ merged ys ∧
      merged (merged xs ++ merged ys) = merged (xs ++ ys) := by
  have left : Typed xs := typed.of_subset (by simp)
  have right : Typed ys := typed.of_subset (by simp)
  have opened := cut_merged_left left right cut
  have still : Cut (mergeFrom none (merged xs)) (merged ys) := by
    have same : mergeFrom none (merged xs) = merged xs := merged_of_gated (gated_merged xs)
    rw [same]
    exact cut_merged_right opened
  have once : merged (xs ++ ys) = merged xs ++ merged ys := mergeFrom_append opened
  have twice : merged (merged xs ++ merged ys) = merged (merged xs) ++ merged (merged ys) :=
    mergeFrom_append still
  exact ⟨once, by rw [twice, once, merged_of_gated (gated_merged xs), merged_of_gated (gated_merged ys)]⟩

theorem merged_joined {front back : List Node} {first next : TextLeaf} {rest more : List TextLeaf}
    (typed : Typed (front ++ (first :: rest).map .text ++ ((next :: more).map .text ++ back)))
    (before : Cut front [.text first]) (after : Cut [.text next] back)
    (same : ∀ leaf ∈ rest ++ next :: more, first.sameMarks leaf = true)
    (alike : ∀ leaf ∈ more, next.sameMarks leaf = true) :
    merged (front ++ (first :: rest).map .text ++ ((next :: more).map .text ++ back)) =
        merged front ++ .text (fused first (rest ++ next :: more)) :: merged back ∧
      merged (merged (front ++ (first :: rest).map .text) ++
          merged ((next :: more).map .text ++ back)) =
        merged front ++ .text (fused (fused first rest) [fused next more]) :: merged back := by
  have leading : first.Typed := typed first (by simp)
  have second : next.Typed := typed next (by simp)
  have typedFront : Typed front := fun leaf member => typed leaf (by simp [member])
  have typedBack : Typed back := fun leaf member => typed leaf (by simp [member])
  have across : first.sameMarks next = true := same next (by simp)
  have held := (leading.sameMarks_iff second).mp across
  have marks : (fused first rest).marks = first.marks := marks_foldl_join rest (.start first)
  have marksToo : (fused next more).marks = next.marks := marks_foldl_join more (.start next)
  have opened := cut_merged_left typedFront (by simpa [Typed] using leading) before
  have ends : Cut [.text first] back := after.of_held second leading typedBack held.symm
  have still := merged_of_gated (gated_merged front)
  have joined : ∀ leaf ∈ [fused next more], (fused first rest).sameMarks leaf = true := by
    intro leaf member
    rw [List.mem_singleton.mp member, sameMarks, marks, marksToo]
    exact across
  have none : merged [] = [] := rfl
  have left : merged (front ++ ((first :: rest).map .text ++ [])) =
      merged front ++ .text (fused first rest) :: merged [] :=
    merged_around (fun leaf member => same leaf (by simp [member])) opened
      fun _ _ _ begins => by cases begins
  have right : merged ([] ++ ((next :: more).map .text ++ back)) =
      merged [] ++ .text (fused next more) :: merged back :=
    merged_around alike (fun _ ends => by cases ends) after
  have once := merged_around same opened ends
  have twice := merged_around joined ((Cut.of_marks marks.symm).2 (still.symm ▸ opened))
    ((Cut.of_marks marks.symm).1 (cut_merged_right ends))
  rw [List.append_nil, none] at left
  rw [List.nil_append, none, List.nil_append] at right
  rw [still, merged_of_gated (gated_merged back)] at twice
  refine ⟨by simpa using once, ?_⟩
  rw [left, right]
  simpa using twice

def unnoted : Node → Node
  | .text leaf => .text { leaf with annotations := .null }
  | n => n

def unspaced : Node → Node
  | .text leaf =>
    .text { leaf with content := .text (.ofList (visible leaf.chars)), annotations := .null }
  | n => n

def exports (nodes : List Node) : List (Except Fault Value) := nodes.map fun n => n.unnoted.exported

-- Merging the two sides of a seam first comes to the same. On each side, either there is nothing to
-- trim at the seam, or it is trimmed in stages just when it is at once: there are breaks that only
-- a whole run tells of, since a text that has been joined is no break any more.
structure Settled (front back : List TextLeaf) : Prop where
  before : trimEnd (fusedChars front) = fusedChars front ∨
    (opensInBreak back && !closesInBreak front) = (isBareBreak back && !isBareBreak front)
  after : trimStart (fusedChars back) = fusedChars back ∨
    (closesInBreak front && !opensInBreak back) = (isBareBreak front && !isBareBreak back)

structure Akin (a b : TextLeaf) : Prop where
  content : ∃ s, a.content = .text s
  other : ∃ s, b.content = .text s
  marks : a.marks = b.marks
  styles : a.styles = b.styles
  classes : a.classes = b.classes

theorem exports_eq_iff {a b : TextLeaf} (akin : Akin a b) (front back : List Node) :
    exports (front ++ .text a :: back) = exports (front ++ .text b :: back) ↔ a.chars = b.chars := by
  obtain ⟨s, left⟩ := akin.content
  obtain ⟨t, right⟩ := akin.other
  simp [exports, unnoted, exported, TextLeaf.written, chars, left, right, akin.marks, akin.styles,
    akin.classes, Value.text?, String.toList_inj]

theorem map_unspaced {a b : TextLeaf} (akin : Akin a b) (seen : visible a.chars = visible b.chars)
    (front back : List Node) :
    (front ++ .text a :: back).map unspaced = (front ++ .text b :: back).map unspaced := by
  simp [unspaced, akin.marks, akin.styles, akin.classes, seen]

section Seaming
variable {first next : TextLeaf} {rest more : List TextLeaf}

theorem seam_akin (texts : ∀ leaf ∈ first :: rest ++ next :: more, ∃ s, leaf.content = .text s) :
    Akin (fused (fused first rest) [fused next more]) (fused first (rest ++ next :: more)) := by
  obtain ⟨front, back⟩ := List.forall_mem_append.mp texts
  obtain ⟨marks, styles, classes⟩ := looks_foldl rest (.start first)
  obtain ⟨marksToo, stylesToo, classesToo⟩ := looks_foldl (rest ++ next :: more) (.start first)
  refine ⟨content_fused ?_, content_fused texts, marks.trans marksToo.symm, styles.trans stylesToo.symm,
    classes.trans classesToo.symm⟩
  simpa using ⟨content_fused front, content_fused back⟩

theorem seam_chars (texts : ∀ leaf ∈ first :: rest ++ next :: more, ∃ s, leaf.content = .text s) :
    (fused (fused first rest) [fused next more]).chars =
      abut (isBareBreak (first :: rest)) (isBareBreak (next :: more)) (fusedChars (first :: rest))
        (fusedChars (next :: more)) := by
  obtain ⟨front, back⟩ := List.forall_mem_append.mp texts
  have left : (OpenRun.start (fused first rest)).broken = isBareBreak (first :: rest) := by
    rw [← isBreak_fused first rest]
    exact Bool.or_false _
  have joined := chars_join_abut (r := .start (fused first rest)) (content_fused front) (content_fused back)
  rw [left, isBreak_fused next more] at joined
  exact joined

theorem seam_visible (texts : ∀ leaf ∈ first :: rest ++ next :: more, ∃ s, leaf.content = .text s) :
    visible (fused (fused first rest) [fused next more]).chars =
      visible (fused first (rest ++ next :: more)).chars := by
  obtain ⟨front, back⟩ := List.forall_mem_append.mp texts
  have both : ∀ leaf ∈ [fused first rest, fused next more], ∃ s, leaf.content = .text s := by
    simpa using ⟨content_fused front, content_fused back⟩
  have whole : visible (fused first (rest ++ next :: more)).chars =
      visible (charsAll (first :: (rest ++ next :: more))) := visible_fused texts
  rw [visible_fused both, whole]
  simp only [charsAll, List.flatMap_cons, List.flatMap_nil, List.flatMap_append, List.append_nil,
    visible_append, visible_fused front, visible_fused back]
  simp [List.append_assoc]

theorem seam_settled (texts : ∀ leaf ∈ first :: rest ++ next :: more, ∃ s, leaf.content = .text s)
    (kept : forgets (first :: rest ++ next :: more) = false) (heeded : forgets (next :: more) = false) :
    abut (isBareBreak (first :: rest)) (isBareBreak (next :: more)) (fusedChars (first :: rest))
        (fusedChars (next :: more)) = fusedChars (first :: rest ++ next :: more) ↔
      Settled (first :: rest) (next :: more) := by
  rw [fusedChars_append texts kept heeded, eq_comm,
    abut_eq_iff closesInBreak_of_bare opensInBreak_of_bare]
  exact ⟨fun ⟨before, after⟩ => ⟨before, after⟩, fun ⟨before, after⟩ => ⟨before, after⟩⟩

end Seaming

-- Lists merged first each for itself and then together differ from the same lists merged at once at
-- most in the blanks of one text, the one at the seam, and in its annotations. They agree just when
-- the seam is trimmed the same either way.
theorem merged_staged (typed : Typed (xs ++ ys)) :
    (merged (merged xs ++ merged ys)).map unspaced = (merged (xs ++ ys)).map unspaced ∧
      (exports (merged (merged xs ++ merged ys)) = exports (merged (xs ++ ys)) ↔
        abut (isBareBreak (seam xs ys).1) (isBareBreak (seam xs ys).2) (fusedChars (seam xs ys).1)
          (fusedChars (seam xs ys).2) = fusedChars ((seam xs ys).1 ++ (seam xs ys).2)) ∧
      (forgets ((seam xs ys).1 ++ (seam xs ys).2) = false → forgets (seam xs ys).2 = false →
        (exports (merged (merged xs ++ merged ys)) = exports (merged (xs ++ ys)) ↔
          Settled (seam xs ys).1 (seam xs ys).2)) := by
  cases meeting typed with
  | apart nothing cut =>
    rw [(merged_cut typed cut).2, nothing]
    exact ⟨rfl, iff_of_true rfl rfl, fun _ _ => iff_of_true rfl ⟨.inl rfl, .inl rfl⟩⟩
  | @within front back first next rest more sides left right before after same alike =>
    subst left right
    obtain ⟨once, staged⟩ := merged_joined typed before after same alike
    have texts : ∀ leaf ∈ first :: rest ++ next :: more, ∃ s, leaf.content = .text s := by
      intro leaf member
      refine (typed leaf ?_).content
      rcases List.mem_append.mp member with here | there
      · exact List.mem_append_left _ (List.mem_append_right _ (List.mem_map_of_mem here))
      · exact List.mem_append_right _ (List.mem_append_left _ (List.mem_map_of_mem there))
    have akin := seam_akin texts
    have exactly : exports (merged (merged (front ++ (first :: rest).map .text) ++
          merged ((next :: more).map .text ++ back))) =
        exports (merged (front ++ (first :: rest).map .text ++ ((next :: more).map .text ++ back))) ↔
        abut (isBareBreak (first :: rest)) (isBareBreak (next :: more)) (fusedChars (first :: rest))
          (fusedChars (next :: more)) = fusedChars (first :: rest ++ next :: more) := by
      rw [staged, once, exports_eq_iff akin, seam_chars texts]
      rfl
    rw [sides]
    refine ⟨?_, exactly, fun kept heeded => exactly.trans (seam_settled texts kept heeded)⟩
    rw [staged, once]
    exact map_unspaced akin (seam_visible texts) _ _

def verse : List Node := [.text (unmarked "a "), .text lineBreak]

def coda : List Node := [.text (unmarked "b"), .text (unmarked " c")]

theorem verse_staged :
    Typed (verse ++ coda) ∧
      seam verse coda = ([unmarked "a ", lineBreak], [unmarked "b", unmarked " c"]) ∧
      Settled (seam verse coda).1 (seam verse coda).2 ∧
        exports (merged (merged verse ++ merged coda)) = exports (merged (verse ++ coda)) := by
  have typed : Typed (verse ++ coda) := by
    simp [Typed, verse, coda, unmarked_typed, lineBreak_typed]
  have settled : Settled (seam verse coda).1 (seam verse coda).2 := ⟨.inr rfl, .inl rfl⟩
  exact ⟨typed, rfl, settled, ((merged_staged typed).2.2 rfl rfl).mpr settled⟩

def bold (s : String) : TextLeaf := ⟨.text s, .record [("bold", .flag true)], .null, .null, .null⟩

def boldVerse : List Node :=
  [.text (bold "a"), .text { bold "\n" with annotations := lineBreak.annotations }]

def boldCoda : List Node := [.text (bold " c")]

theorem boldVerse_untrimmed :
    Typed (boldVerse ++ boldCoda) ∧ merged (boldVerse ++ boldCoda) = [.text (bold "a\nc")] ∧
      merged (merged boldVerse ++ merged boldCoda) = [.text (bold "a\n c")] ∧
        exports (merged (merged boldVerse ++ merged boldCoda)) ≠ exports (merged (boldVerse ++ boldCoda)) := by
  have typed : ∀ s annotations, ({ bold s with annotations := annotations } : TextLeaf).Typed :=
    fun s _ => ⟨⟨s, rfl⟩, .table (by decide) (by simp)⟩
  have kept : withoutTrailingBlanks "a" = "a" := withoutTrailingBlanks_eq "a"
  have begun : (OpenRun.start (bold "a")).join { bold "\n" with annotations := lineBreak.annotations } =
      ⟨bold (withoutTrailingBlanks "a" ++ "\n"), true⟩ := rfl
  rw [kept] at begun
  have once : merged (boldVerse ++ boldCoda) = [.text (bold "a\nc")] := by
    show mergeFrom (some ((OpenRun.start (bold "a")).join _)) boldCoda = _
    rw [begun]
    rfl
  have first : merged boldVerse = [.text (bold "a\n")] := by
    show mergeFrom (some ((OpenRun.start (bold "a")).join _)) [] = _
    rw [begun]
    rfl
  have staged : merged (merged boldVerse ++ merged boldCoda) = [.text (bold "a\n c")] := by
    rw [first]
    rfl
  refine ⟨by simp [Typed, boldVerse, boldCoda, typed], once, staged, ?_⟩
  rw [once, staged]
  simp [exports, unnoted, exported, TextLeaf.written, bold]

end Node
end SemanticMarkup
