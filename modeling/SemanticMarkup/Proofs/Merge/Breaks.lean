import Mathlib.Data.List.Chain
import SemanticMarkup.Proofs.Merge.Labels

namespace SemanticMarkup
open Text Walk

namespace Node

-- Two neighbours of which one is known to be a break, and the other is a text with the same
-- marks and a line end of its own on the side of the break. Such a line end is trimmed away.
def clash : Node → Node → Bool
  | .text x, .text y =>
    x.sameMarks y && ((x.isBreak && !y.isBreak && opensBroken y.chars) ||
      (y.isBreak && !x.isBreak && closesBroken x.chars))
  | _, _ => false

def Smooth (nodes : List Node) : Prop := nodes.IsChain fun a b => clash a b = false

def ends (n : Node) : Nat := lineEnds (n.collect TextLeaf.chars)
def endsAll (nodes : List Node) : Nat := lineEnds (collectAll TextLeaf.chars nodes)

@[simp] theorem ends_text (leaf : TextLeaf) : ends (.text leaf) = lineEnds leaf.chars := rfl

@[simp] theorem ends_element (head : ElementHead) (children : List Node) :
    ends (.element head children) = endsAll children := rfl

@[simp] theorem endsAll_nil : endsAll [] = 0 := rfl

@[simp] theorem endsAll_cons (n : Node) (rest : List Node) :
    endsAll (n :: rest) = n.ends + endsAll rest := lineEnds_append ..

@[simp] theorem endsAll_append (front back : List Node) :
    endsAll (front ++ back) = endsAll front + endsAll back := by
  rw [endsAll, collectAll_append, lineEnds_append]
  rfl

-- A run that has come so far tells the same to the next text as the last text that was joined.
inductive Follows : Option OpenRun → List Node → Prop where
  | closed : Follows none []
  | opened {r : OpenRun} {x : TextLeaf} (whole : r.leaf.Solid) (last : x.Solid)
    (marks : Marks.held r.leaf.marks = Marks.held x.marks) (broken : r.broken = x.isBreak)
    (ends : x.isBreak = false → closesBroken r.leaf.chars = closesBroken x.chars) :
    Follows (some r) [.text x]

theorem Follows.start {x : TextLeaf} (solid : x.Solid) : Follows (some (.start x)) [.text x] :=
  .opened solid solid rfl (Bool.or_false _) fun _ => rfl

variable {r : OpenRun} {x y : TextLeaf}

theorem lineEnds_join_le (old : ∃ s, r.leaf.content = .text s) (new : ∃ s, y.content = .text s) :
    lineEnds (r.join y).leaf.chars ≤ lineEnds r.leaf.chars + lineEnds y.chars := by
  have front := lineEnds_trimEnd_le r.leaf.chars
  have back := lineEnds_trimStart_le y.chars
  rw [TextLeaf.chars_join old new, lineEnds_append]
  split <;> split <;> omega

theorem sameMarks_of_held {a b c : TextLeaf} (left : a.Solid) (middle : b.Solid) (right : c.Solid)
    (held : Marks.held a.marks = Marks.held b.marks) : a.sameMarks c = b.sameMarks c := by
  rw [Bool.eq_iff_iff, left.sameMarks_iff right, middle.sameMarks_iff right, held]

theorem Follows.lineEnds_join (follows : Follows (some r) [.text x]) (solid : y.Solid)
    (same : r.leaf.sameMarks y = true) :
    lineEnds (r.join y).leaf.chars = lineEnds r.leaf.chars + lineEnds y.chars ↔
      clash (.text x) (.text y) = false := by
  cases follows with
  | opened whole last marks broken ends =>
    rw [sameMarks_of_held whole last solid marks] at same
    have front := lineEnds_trimEnd_eq_iff r.leaf.chars
    have back := lineEnds_trimStart_eq_iff y.chars
    rw [TextLeaf.chars_join whole.content solid.content, lineEnds_append, clash, same, broken]
    cases left : x.isBreak <;> cases right : y.isBreak
    · simp
    · rw [ends left] at front
      simp [front]
    · simp [back]
    · simp

theorem seen_of_unbroken (solid : y.Solid) (unbroken : opensBroken y.chars = false) :
    allBlank y.chars = false := by
  cases blank : allBlank y.chars with
  | false => rfl
  | true =>
    rcases solid.lasting with seen | broken
    · rw [blank] at seen
      cases seen
    · rw [opensBroken_of_blank blank broken] at unbroken
      cases unbroken

theorem closesBroken_of_lasting (front : List Char) {back : List Char}
    (lasting : allBlank back = false ∨ '\n' ∈ back) :
    closesBroken (front ++ back) = closesBroken back := by
  cases blank : allBlank back with
  | false => exact closesBroken_append blank
  | true =>
    rcases lasting with seen | broken
    · rw [blank] at seen
      cases seen
    · have alone := closesBroken_of_blank [] blank broken
      rw [closesBroken_of_blank front blank broken]
      exact alone.symm

theorem endsInBreak_join (solid : y.Solid) (plain : y.isBreak = false)
    (unbroken : r.broken = true → opensBroken y.chars = false) : (r.join y).endsInBreak = false := by
  cases broken : r.broken with
  | false =>
    have running : r.endsInBreak = false := (Bool.or_eq_false_iff.mp broken).2
    simp [OpenRun.join, plain, running]
  | true =>
    obtain ⟨s, content⟩ := solid.content
    have seen := seen_of_unbroken solid (unbroken broken)
    rw [← allBlank_trimStart] at seen
    have kept : withoutLeadingBlanks s ≠ "" := by
      intro empty
      have none : trimStart y.chars = [] := by
        simpa [withoutLeadingBlanks, TextLeaf.chars, content, Value.text?] using empty
      rw [none] at seen
      cases seen
    have together : (r.leaf.isBreak || r.endsInBreak) = true := broken
    simp [OpenRun.join, plain, together, content, Value.mapText, Value.isTrue, kept]

theorem Follows.join (follows : Follows (some r) [.text x]) (solid : y.Solid)
    (same : r.leaf.sameMarks y = true) (smooth : clash (.text x) (.text y) = false) :
    Follows (some (r.join y)) [.text y] := by
  cases follows with
  | opened whole last marks broken ends =>
    have unbroken : y.isBreak = false → r.broken = true → opensBroken y.chars = false := by
      intro plain before
      rw [broken] at before
      rw [sameMarks_of_held whole last solid marks] at same
      simpa [clash, same, before, plain] using smooth
    refine .opened (whole.join solid) solid ((whole.sameMarks_iff solid).mp same) ?_ fun plain => ?_
    · rw [OpenRun.broken, TextLeaf.isBreak_join, Bool.false_or]
      cases breaks : y.isBreak with
      | true => simp [OpenRun.join, breaks]
      | false => exact endsInBreak_join solid breaks (unbroken breaks)
    · rw [TextLeaf.chars_join whole.content solid.content, plain]
      cases before : r.broken with
      | false => exact closesBroken_of_lasting r.leaf.chars solid.lasting
      | true =>
        have seen := seen_of_unbroken solid (unbroken plain before)
        have inner : allBlank (trimStart y.chars) = false := by rw [allBlank_trimStart, seen]
        exact (closesBroken_append inner).trans (closesBroken_trimStart seen)

theorem endsAll_mergeFrom_le {run : Option OpenRun} {nodes : List Node}
    (begun : ∀ r ∈ run, ∃ s, r.leaf.content = .text s)
    (given : ∀ leaf, .text leaf ∈ nodes → ∃ s, leaf.content = .text s) :
    endsAll (mergeFrom run nodes) ≤ endsAll (opening run) + endsAll nodes := by
  fun_induction mergeFrom run nodes with
  | case1 => simp
  | case2 r => simp [opening]
  | case3 leaf rest ih =>
    have others := ih (by simpa [OpenRun.start] using given leaf (by simp))
      fun l member => given l (by simp [member])
    simpa [opening, OpenRun.start] using others
  | case4 r leaf rest same ih =>
    have old := begun r rfl
    have new := given leaf (by simp)
    have others := ih (by simpa using TextLeaf.content_join old new)
      fun l member => given l (by simp [member])
    have step := lineEnds_join_le old new
    simp only [opening, Option.toList_some, List.map_cons, List.map_nil, endsAll_cons, ends_text]
      at others ⊢
    omega
  | case5 r leaf rest other ih =>
    have others := ih (by simpa [OpenRun.start] using given leaf (by simp))
      fun l member => given l (by simp [member])
    simpa [opening, OpenRun.start] using others
  | case6 n rest _ ih =>
    have others := ih (by simp) fun l member => given l (by simp [member])
    simpa [opening] using others
  | case7 r n rest _ ih =>
    have others := ih (by simp) fun l member => given l (by simp [member])
    simpa [opening] using others

theorem clash_of_other {n : Node} (other : ∀ leaf, n ≠ .text leaf) (m : Node) :
    clash n m = false ∧ clash m n = false := by
  cases n with
  | text leaf => exact absurd rfl (other leaf)
  | _ => cases m <;> exact ⟨rfl, rfl⟩

theorem smooth_cons_of_other {n : Node} (other : ∀ leaf, n ≠ .text leaf) (rest : List Node) :
    Smooth (n :: rest) ↔ Smooth rest := by
  cases rest with
  | nil => simp [Smooth]
  | cons next rest => simp [Smooth, (clash_of_other other next).1]

theorem smooth_cons_text {x y : TextLeaf} {rest : List Node} :
    Smooth (.text x :: .text y :: rest) ↔
      clash (.text x) (.text y) = false ∧ Smooth (.text y :: rest) := by
  simp [Smooth]

theorem endsAll_lost {r : OpenRun} {x y : TextLeaf} {rest : List Node}
    (follows : Follows (some r) [.text x]) (whole : r.leaf.Solid) (solid : y.Solid)
    (later : ∀ leaf, .text leaf ∈ rest → leaf.Solid) (same : r.leaf.sameMarks y = true)
    (clashes : clash (.text x) (.text y) = true) :
    endsAll (mergeFrom (some (r.join y)) rest) <
      lineEnds r.leaf.chars + (lineEnds y.chars + endsAll rest) := by
  have bound : endsAll (mergeFrom (some (r.join y)) rest) ≤
      endsAll (opening (some (r.join y))) + endsAll rest :=
    endsAll_mergeFrom_le (by simpa using (whole.join solid).content)
      fun l member => (later l member).content
  have less := lineEnds_join_le whole.content solid.content
  have lost : lineEnds (r.join y).leaf.chars ≠ lineEnds r.leaf.chars + lineEnds y.chars := by
    intro kept
    rw [(follows.lineEnds_join solid same).mp kept] at clashes
    cases clashes
  simp only [opening, Option.toList_some, List.map_cons, List.map_nil, endsAll_cons, endsAll_nil,
    ends_text] at bound
  omega

theorem endsAll_mergeFrom_iff {run : Option OpenRun} {last nodes : List Node}
    (follows : Follows run last) (given : ∀ leaf, .text leaf ∈ nodes → leaf.Solid) :
    endsAll (mergeFrom run nodes) = endsAll (opening run) + endsAll nodes ↔
      Smooth (last ++ nodes) := by
  induction nodes generalizing run last with
  | nil =>
    cases follows with
    | closed => simp [mergeFrom, Smooth, opening]
    | opened => simp [mergeFrom, Smooth, opening]
  | cons n rest ih =>
    have later : ∀ leaf, .text leaf ∈ rest → leaf.Solid := fun l member => given l (by simp [member])
    rcases n.text_or_other with ⟨y, rfl⟩ | other
    · have solid := given y (by simp)
      have opened : endsAll (mergeFrom (some (.start y)) rest) = lineEnds y.chars + endsAll rest ↔
          Smooth (.text y :: rest) := by
        simpa [opening, OpenRun.start] using ih (.start solid) later
      cases follows with
      | closed =>
        rw [mergeFrom, List.nil_append, ← opened]
        simp [opening]
      | @opened r x whole last marks broken ends =>
        have follows := Follows.opened whole last marks broken ends
        rw [mergeFrom, List.singleton_append, smooth_cons_text]
        cases same : r.leaf.sameMarks y with
        | false =>
          have apart : clash (.text x) (.text y) = false := by
            rw [sameMarks_of_held whole last solid marks] at same
            simp [clash, same]
          simp [opening, apart, ← opened]
        | true =>
          have step := follows.lineEnds_join solid same
          rw [if_pos rfl]
          cases smooth : clash (.text x) (.text y) with
          | false =>
            have kept := step.mpr smooth
            have others := ih (follows.join solid same smooth) later
            simp only [opening, Option.toList_some, List.map_cons, List.map_nil, endsAll_cons,
              endsAll_nil, ends_text, List.singleton_append] at others ⊢
            rw [true_and, ← others]
            omega
          | true =>
            have lost := endsAll_lost follows whole solid later same smooth
            simp only [opening, Option.toList_some, List.map_cons, List.map_nil, endsAll_cons,
              endsAll_nil, ends_text, Bool.true_eq_false, false_and, iff_false]
            omega
    · have others : endsAll (mergeFrom none rest) = endsAll rest ↔ Smooth rest := by
        simpa [opening] using ih .closed later
      have apart : Smooth (last ++ n :: rest) ↔ Smooth rest := by
        cases follows with
        | closed => exact smooth_cons_of_other other rest
        | opened =>
          rw [← smooth_cons_of_other other rest]
          simp [Smooth, (clash_of_other other _).2]
      rw [mergeFrom_of_other other, apart, ← others]
      simp only [endsAll_append, endsAll_cons]
      omega

theorem endsAll_merged_le {nodes : List Node}
    (given : ∀ leaf, .text leaf ∈ nodes → leaf.Solid) : endsAll (merged nodes) ≤ endsAll nodes := by
  have bound : endsAll (mergeFrom none nodes) ≤ endsAll (opening none) + endsAll nodes :=
    endsAll_mergeFrom_le (by simp) fun l member => (given l member).content
  simpa [opening, merged] using bound

theorem endsAll_merged_iff {nodes : List Node}
    (given : ∀ leaf, .text leaf ∈ nodes → leaf.Solid) :
    endsAll (merged nodes) = endsAll nodes ↔ Smooth nodes := by
  simpa [opening, merged] using endsAll_mergeFrom_iff .closed given

theorem endsAll_map {f : Node → Node} {nodes : List Node} (less : ∀ n ∈ nodes, (f n).ends ≤ n.ends) :
    endsAll (nodes.map f) ≤ endsAll nodes ∧
      (endsAll (nodes.map f) = endsAll nodes ↔ ∀ n ∈ nodes, (f n).ends = n.ends) := by
  induction nodes with
  | nil => simp
  | cons n rest ih =>
    have first := less n (by simp)
    obtain ⟨bound, exact⟩ := ih fun m member => less m (by simp [member])
    simp only [List.map_cons, endsAll_cons, List.forall_mem_cons, ← exact]
    omega

def SmoothInside (n : Node) : Prop := Smooth n.children

theorem smooth_childless {n : Node} (none : n.children = []) : Everywhere SmoothInside n := by
  refine .of_childless none ?_
  rw [SmoothInside, none]
  exact List.isChain_nil

theorem everywhere_smooth_merged {nodes : List Node} :
    (∀ c ∈ merged nodes, Everywhere SmoothInside c) ↔ ∀ c ∈ nodes, Everywhere SmoothInside c := by
  constructor
  · intro all c member
    rcases c.text_or_other with ⟨leaf, rfl⟩ | other
    · exact smooth_childless rfl
    · exact all c (mem_mergeFrom_of_other other none member)
  · exact everywhere_merged fun leaf => (smooth_childless (n := .text leaf) rfl).here

theorem ends_mergeWithin {levels depth : Nat} {n : Node} (alike : Everywhere AlikeInside n)
    (inside : Within depth n) (lt : depth < levels) :
    (editWithin mergeChildren levels n).1.ends ≤ n.ends ∧
      ((editWithin mergeChildren levels n).1.ends = n.ends ↔ Everywhere SmoothInside n) := by
  induction levels generalizing depth n with
  | zero => omega
  | succ levels ih =>
    cases n with
    | element head children =>
      obtain ⟨styles, classes, given⟩ := alike.here
      have solid : ∀ leaf, .text leaf ∈ children → leaf.Solid := fun l member => (given l member).solid
      have deep := mergeChildren_within depth _ inside
      have below : ∀ c ∈ merged children, ∃ fewer, depth = fewer + 1 ∧ Within fewer c :=
        fun c member => deep.child member
      have done : ∀ c ∈ merged children, (editWithin mergeChildren levels c).2 = true := by
        intro c member
        obtain ⟨fewer, rfl, lower⟩ := below c member
        exact (editWithin_of_within mergeChildren_within lower (by omega)).1
      have each : ∀ c ∈ merged children,
          (editWithin mergeChildren levels c).1.ends ≤ c.ends ∧
            ((editWithin mergeChildren levels c).1.ends = c.ends ↔ Everywhere SmoothInside c) := by
        intro c member
        obtain ⟨fewer, rfl, lower⟩ := below c member
        exact ih (everywhere_merged alikeInside_text alike.inside c member) lower (by omega)
      obtain ⟨less, exact⟩ := endsAll_map fun c member => (each c member).1
      have whole : (editWithin mergeChildren (levels + 1) (.element head children)).1.ends =
          endsAll ((merged children).map fun c => (editWithin mergeChildren levels c).1) := by
        rw [editWithin_all done]
        rfl
      have parts : (∀ c ∈ merged children, (editWithin mergeChildren levels c).1.ends = c.ends) ↔
          ∀ c ∈ children, Everywhere SmoothInside c := by
        rw [← everywhere_smooth_merged]
        exact forall₂_congr fun c member => (each c member).2
      have bound := endsAll_merged_le solid
      have here : SmoothInside (.element head children) ↔ Smooth children := Iff.rfl
      rw [everywhere_element, here, ← parts, ← exact, ← endsAll_merged_iff solid, whole, ends_element]
      omega
    | _ => exact ⟨Nat.le_refl _, fun _ => smooth_childless rfl, fun _ => rfl⟩

theorem ends_mergeAll {root : Node} (alike : Everywhere AlikeInside root)
    (inside : Within maxDepth root) :
    (mergeAll root).1.ends ≤ root.ends ∧
      ((mergeAll root).1.ends = root.ends ↔ Everywhere SmoothInside root) :=
  ends_mergeWithin alike inside (Nat.lt_succ_self maxDepth)

end Node
end SemanticMarkup
