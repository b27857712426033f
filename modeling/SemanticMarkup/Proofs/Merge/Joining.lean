import SemanticMarkup.Proofs.Merge.Segments

namespace SemanticMarkup
open Text

namespace Text

-- Two stretches of characters side by side. Where just one of them has a break there, the other
-- loses the blanks next to it.
def abut (before after : Bool) (front back : List Char) : List Char :=
  (if after && !before then trimEnd front else front) ++
    (if before && !after then trimStart back else back)

theorem abut_assoc (before breaks after : Bool) (front middle back : List Char) :
    abut (breaks || (before && allBlank middle)) after (abut before breaks front middle) back =
      abut before (breaks || (allBlank middle && after)) front (abut breaks after middle back) := by
  cases breaks with
  | true => cases before <;> cases after <;> simp [abut]
  | false =>
    cases blank : allBlank middle with
    | true =>
      have start : trimStart middle = [] := trimStart_eq_nil_iff.mpr blank
      have stop : trimEnd middle = [] := trimEnd_eq_nil_iff.mpr blank
      cases before <;> cases after <;>
        simp [abut, start, stop, trimStart_append_of_blank blank, trimEnd_append_of_blank _ blank]
    | false =>
      have start : allBlank (trimStart middle) = false := by rw [allBlank_trimStart, blank]
      have stop : allBlank (trimEnd middle) = false := by rw [allBlank_trimEnd, blank]
      cases before <;> cases after <;>
        simp [abut, trimStart_append_of_seen blank, trimEnd_append_of_seen _ blank,
          trimStart_append_of_seen stop, trimEnd_append_of_seen _ start, trimStart_trimEnd]

theorem abut_eq_iff {before after known told : Bool} (one : known = true → before = true)
    (other : told = true → after = true) (front back : List Char) :
    abut before after front back = abut known told front back ↔
      (trimEnd front = front ∨ (after && !before) = (told && !known)) ∧
        (trimStart back = back ∨ (before && !after) = (known && !told)) := by
  cases before <;> cases after <;> cases known <;> cases told <;>
    simp_all [abut]
  all_goals exact eq_comm

end Text

namespace TextLeaf
variable {r : OpenRun} {first next : TextLeaf} {rest more run : List TextLeaf}

def opensInBreak : List TextLeaf → Bool
  | [] => false
  | leaf :: rest => leaf.isBreak || (allBlank leaf.chars && opensInBreak rest)

def closesInBreak (run : List TextLeaf) : Bool := opensInBreak run.reverse

-- A break that is a whole run: merging leaves it alone, with the note that it is one.
def isBareBreak : List TextLeaf → Bool
  | [only] => only.isBreak
  | _ => false

def fused (first : TextLeaf) (rest : List TextLeaf) : TextLeaf :=
  (rest.foldl OpenRun.join (.start first)).leaf

def fusedChars : List TextLeaf → List Char
  | [] => []
  | first :: rest => (fused first rest).chars

theorem closesInBreak_concat (run : List TextLeaf) (last : TextLeaf) :
    closesInBreak (run ++ [last]) = (last.isBreak || (allBlank last.chars && closesInBreak run)) := by
  simp [closesInBreak, opensInBreak]

theorem broken_join (text : ∃ s, next.content = .text s) :
    (r.join next).broken = (next.isBreak || (r.endsInBreak && allBlank next.chars)) := by
  rw [OpenRun.broken, isBreak_join, Bool.false_or]
  cases breaks : next.isBreak with
  | true => simp [OpenRun.join, breaks]
  | false =>
    cases ends : r.endsInBreak with
    | false => simp [OpenRun.join, breaks, ends]
    | true =>
      have step := endsInBreak_join_plain text breaks (r := r) (by simp [OpenRun.broken, ends])
      rw [step]
      simp [OpenRun.broken, ends]

theorem chars_join_abut (old : ∃ s, r.leaf.content = .text s) (new : ∃ s, next.content = .text s) :
    (r.join next).leaf.chars = abut r.broken next.isBreak r.leaf.chars next.chars := chars_join old new

-- A run that begins with this text, and in which a break at its start is not forgotten.
def noted (leaf : TextLeaf) : OpenRun :=
  if leaf.isBreak then ⟨{ leaf with annotations := .null }, true⟩ else .start leaf

theorem noted_leaf (leaf : TextLeaf) :
    (noted leaf).leaf.content = leaf.content ∧ (noted leaf).leaf.isBreak = false ∧
      (noted leaf).broken = leaf.isBreak := by
  unfold noted
  split
  · rename_i breaks
    exact ⟨rfl, rfl, by simp [OpenRun.broken, breaks]⟩
  · rename_i plain
    have other : leaf.isBreak = false := by simpa using plain
    exact ⟨rfl, other, by simp [OpenRun.broken, OpenRun.start, other]⟩

theorem chars_noted (leaf : TextLeaf) : (noted leaf).leaf.chars = leaf.chars := by
  rw [chars, (noted_leaf leaf).1, ← chars]

theorem ends_of_plain (plain : r.leaf.isBreak = false) : r.endsInBreak = r.broken := by
  rw [OpenRun.broken, plain, Bool.false_or]

theorem isBreak_foldl (run : List TextLeaf) (plain : r.leaf.isBreak = false) :
    (run.foldl OpenRun.join r).leaf.isBreak = false := by
  induction run generalizing r with
  | nil => exact plain
  | cons next rest ih => exact ih isBreak_join

theorem content_foldl (old : ∃ s, r.leaf.content = .text s)
    (texts : ∀ leaf ∈ run, ∃ s, leaf.content = .text s) :
    ∃ s, (run.foldl OpenRun.join r).leaf.content = .text s := by
  induction run generalizing r with
  | nil => exact old
  | cons next rest ih =>
    obtain ⟨text, others⟩ := List.forall_mem_cons.mp texts
    exact ih (content_join old text) others

theorem broken_noted (texts : ∀ leaf ∈ rest, ∃ s, leaf.content = .text s) :
    (rest.foldl OpenRun.join (noted first)).broken = closesInBreak (first :: rest) := by
  induction rest using List.reverseRecOn with
  | nil => simp [(noted_leaf first).2.2, closesInBreak, opensInBreak]
  | append_singleton rest last ih =>
    have others := ih fun leaf member => texts leaf (by simp [member])
    have plain := isBreak_foldl rest (noted_leaf first).2.1
    rw [List.foldl_append, List.foldl_cons, List.foldl_nil, broken_join (texts last (by simp)),
      ends_of_plain plain, others, ← List.cons_append, closesInBreak_concat, Bool.and_comm]

-- Joining a run to another comes to joining what it is by itself: the seam is trimmed as the breaks
-- of both runs demand, no matter how many texts they are seen through.
theorem chars_foldl_join (plain : r.leaf.isBreak = false) (old : ∃ s, r.leaf.content = .text s)
    (texts : ∀ leaf ∈ first :: rest, ∃ s, leaf.content = .text s) :
    (rest.foldl OpenRun.join (r.join first)).leaf.chars =
      abut r.broken (opensInBreak (first :: rest)) r.leaf.chars
        (rest.foldl OpenRun.join (noted first)).leaf.chars := by
  obtain ⟨text, others⟩ := List.forall_mem_cons.mp texts
  induction rest generalizing r first with
  | nil => simp [chars_join_abut old text, opensInBreak, chars_noted]
  | cons next rest ih =>
    obtain ⟨content, unbroken, breaks⟩ := noted_leaf first
    have whole := content_join old text
    have alone : ∃ s, (noted first).leaf.content = .text s := by rwa [content]
    obtain ⟨follows, later⟩ := List.forall_mem_cons.mp others
    rw [List.foldl_cons, List.foldl_cons, ih isBreak_join whole others follows later,
      ih unbroken alone others follows later, chars_join_abut old text, broken_join text, breaks,
      chars_noted, ends_of_plain plain, abut_assoc]
    rfl

theorem join_noted (texts : ∃ s, next.content = .text s) (kept : forgets (first :: next :: rest) = false) :
    (OpenRun.start first).join next = (noted first).join next := by
  cases breaks : first.isBreak with
  | false => rw [noted, if_neg (by simp [breaks])]
  | true =>
    have same : (noted first) = ⟨{ first with annotations := .null }, true⟩ := if_pos breaks
    cases again : next.isBreak with
    | true => simp [same, OpenRun.join, OpenRun.start, breaks, again]
    | false =>
      have seen : allBlank next.chars = false := by
        simpa [forgets, breaks, again] using kept
      have some := isTrue_trimmed texts
      rw [seen, Bool.not_false] at some
      simp [same, OpenRun.join, OpenRun.start, breaks, again, some]

theorem chars_foldl_noted (texts : ∀ leaf ∈ rest, ∃ s, leaf.content = .text s)
    (kept : forgets (first :: rest) = false) :
    (rest.foldl OpenRun.join (.start first)).leaf.chars =
      (rest.foldl OpenRun.join (noted first)).leaf.chars := by
  cases rest with
  | nil => exact (chars_noted first).symm
  | cons next rest =>
    rw [List.foldl_cons, List.foldl_cons, join_noted (texts next List.mem_cons_self) kept]

theorem Typed.join (old : r.leaf.Typed) (new : next.Typed) : (r.join next).leaf.Typed :=
  ⟨content_join old.content new.content, old.marks⟩

theorem forgets_append (kept : forgets (first :: rest ++ more) = false) :
    forgets (first :: rest) = false := by
  cases rest with
  | nil => rfl
  | cons => exact kept

theorem fusedChars_append (texts : ∀ leaf ∈ first :: rest ++ next :: more, ∃ s, leaf.content = .text s)
    (kept : forgets (first :: rest ++ next :: more) = false) (heeded : forgets (next :: more) = false) :
    fusedChars (first :: rest ++ next :: more) =
      abut (closesInBreak (first :: rest)) (opensInBreak (next :: more))
        (fusedChars (first :: rest)) (fusedChars (next :: more)) := by
  obtain ⟨front, back⟩ := List.forall_mem_append.mp texts
  obtain ⟨text, others⟩ := List.forall_mem_cons.mp front
  have alone : ∃ s, (noted first).leaf.content = .text s := by rwa [(noted_leaf first).1]
  have whole : ((rest ++ next :: more).foldl OpenRun.join (.start first)).leaf.chars =
      ((rest ++ next :: more).foldl OpenRun.join (noted first)).leaf.chars :=
    chars_foldl_noted (List.forall_mem_cons.mp texts).2 kept
  have before := chars_foldl_noted others (forgets_append kept)
  have after := chars_foldl_noted (List.forall_mem_cons.mp back).2 heeded
  rw [List.cons_append, fusedChars, fusedChars, fusedChars, fused, fused, fused, whole, before, after,
    List.foldl_append, List.foldl_cons,
    chars_foldl_join (isBreak_foldl rest (noted_leaf first).2.1) (content_foldl alone others) back,
    broken_noted others]

theorem isBreak_fused (first : TextLeaf) (rest : List TextLeaf) :
    (fused first rest).isBreak = isBareBreak (first :: rest) := by
  cases rest with
  | nil => rfl
  | cons next rest => exact isBreak_foldl rest isBreak_join

theorem opensInBreak_of_bare (bare : isBareBreak run = true) : opensInBreak run = true := by
  match run, bare with
  | [only], bare =>
    have breaks : only.isBreak = true := bare
    simp [opensInBreak, breaks]

theorem closesInBreak_of_bare (bare : isBareBreak run = true) : closesInBreak run = true := by
  match run, bare with
  | [only], bare => exact opensInBreak_of_bare bare

theorem content_fused (texts : ∀ leaf ∈ first :: rest, ∃ s, leaf.content = .text s) :
    ∃ s, (fused first rest).content = .text s := by
  obtain ⟨text, others⟩ := List.forall_mem_cons.mp texts
  exact content_foldl (r := .start first) text others

theorem visible_foldl (old : ∃ s, r.leaf.content = .text s)
    (texts : ∀ leaf ∈ run, ∃ s, leaf.content = .text s) :
    visible (run.foldl OpenRun.join r).leaf.chars = visible r.leaf.chars ++ visible (charsAll run) := by
  induction run generalizing r with
  | nil => simp [charsAll, visible]
  | cons next rest ih =>
    obtain ⟨text, others⟩ := List.forall_mem_cons.mp texts
    rw [List.foldl_cons, ih (content_join old text) others, visible_join old text, List.append_assoc,
      ← visible_append]
    rfl

theorem visible_fused (texts : ∀ leaf ∈ first :: rest, ∃ s, leaf.content = .text s) :
    visible (fused first rest).chars = visible (charsAll (first :: rest)) := by
  obtain ⟨text, others⟩ := List.forall_mem_cons.mp texts
  rw [fused, visible_foldl (r := .start first) text others, ← visible_append]
  rfl

theorem looks_foldl (run : List TextLeaf) (r : OpenRun) :
    (run.foldl OpenRun.join r).leaf.marks = r.leaf.marks ∧
      (run.foldl OpenRun.join r).leaf.styles = r.leaf.styles ∧
        (run.foldl OpenRun.join r).leaf.classes = r.leaf.classes := by
  induction run generalizing r with
  | nil => exact ⟨rfl, rfl, rfl⟩
  | cons next rest ih => exact ih (r.join next)

end TextLeaf
end SemanticMarkup
