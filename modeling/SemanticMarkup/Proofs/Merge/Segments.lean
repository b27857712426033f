import Mathlib.Data.List.SplitBy
import SemanticMarkup.Proofs.Merge.Labels

namespace SemanticMarkup
open Text

namespace TextLeaf

structure Typed (leaf : TextLeaf) : Prop where
  content : ∃ s, leaf.content = .text s
  marks : Marks.Flags leaf.marks

def charsAll (texts : List TextLeaf) : List Char := texts.flatMap chars

-- The segments of a run: every break for itself, and together what stands between two breaks.
def segments (run : List TextLeaf) : List (List TextLeaf) :=
  run.splitBy fun a b => !(a.isBreak || b.isBreak)

def trimmed (before after : Bool) (cs : List Char) : List Char :=
  let opened := if before then trimStart cs else cs
  if after then trimEnd opened else opened

-- The segments of a run put together, after a break or not. A break is kept as it is; anything
-- else loses its blanks on each side on which there is a break somewhere in the run.
def laid (before : Bool) : List (List TextLeaf) → List Char
  | [] => []
  | segment :: rest =>
    (if segment.any isBreak then charsAll segment
      else trimmed before (rest.any fun later => later.any isBreak) (charsAll segment)) ++
      laid (before || segment.any isBreak) rest

def blend : List TextLeaf → Option TextLeaf
  | [] => none
  | first :: rest => some
    { first with
      content := .text (.ofList (laid false (segments (first :: rest))))
      annotations := if !rest.isEmpty && (first :: rest).any isBreak then .null
        else first.annotations }

-- A break that begins a run and that nothing but blanks follows, which trimming takes away. No
-- note of the break is left when the next text comes.
def forgets : List TextLeaf → Bool
  | first :: next :: _ => first.isBreak && !next.isBreak && allBlank next.chars
  | _ => false

-- The run as joining takes it: a break that is forgotten counts as any other text.
def heeded : List TextLeaf → List TextLeaf
  | first :: next :: rest =>
    if forgets (first :: next :: rest) then { first with annotations := .null } :: rest
    else first :: next :: rest
  | run => run

theorem heeded_of_kept {run : List TextLeaf} (kept : forgets run = false) : heeded run = run := by
  match run with
  | [] | [_] => rfl
  | first :: next :: rest => rw [heeded, if_neg (by simp [kept])]

def going (seen : Bool) (segment : List Char) : List TextLeaf → List Char
  | [] => trimmed seen false segment
  | next :: rest =>
    if next.isBreak then trimmed seen true segment ++ (next.chars ++ going true [] rest)
    else going seen (segment ++ next.chars) rest

section Laying
variable {run segment : List TextLeaf}

theorem segments_break {b : TextLeaf} (breaks : b.isBreak = true) (rest : List TextLeaf) :
    segments (b :: rest) = [b] :: segments rest := by
  have apart : ∀ x ∈ [b].getLast?, ∀ y ∈ rest.head?, (!(x.isBreak || y.isBreak)) = false := by
    simp [breaks]
  exact List.splitBy_append apart

theorem segments_before_break {b : TextLeaf} (breaks : b.isBreak = true)
    (front rest : List TextLeaf) :
    segments (front ++ b :: rest) = segments front ++ [b] :: segments rest := by
  rw [← segments_break breaks]
  exact List.splitBy_append_cons rest fun x _ => by simp [breaks]

theorem segments_plain (some : segment ≠ []) (plain : ∀ x ∈ segment, x.isBreak = false) :
    segments segment = [segment] := by
  refine List.splitBy_of_isChain some (List.Pairwise.isChain ?_)
  refine List.pairwise_of_forall_mem_list fun a first b second => ?_
  simp [plain a first, plain b second]

@[simp] theorem trimmed_nil (before after : Bool) : trimmed before after [] = [] := by
  cases before <;> cases after <;> rfl

theorem laid_plain_append (plain : ∀ x ∈ segment, x.isBreak = false) (seen : Bool)
    (rest : List (List TextLeaf)) :
    laid seen (segments segment ++ rest) =
      trimmed seen (rest.any fun later => later.any isBreak) (charsAll segment) ++
        laid seen rest := by
  cases segment with
  | nil => simp [segments, charsAll]
  | cons x more =>
    have none : (x :: more).any isBreak = false := by
      simpa using plain
    rw [segments_plain (by simp) plain, List.singleton_append, laid, none]
    simp

theorem laid_break {b : TextLeaf} (breaks : b.isBreak = true) (seen : Bool)
    (rest : List (List TextLeaf)) : laid seen ([b] :: rest) = b.chars ++ laid true rest := by
  simp [laid, breaks, charsAll]

theorem laid_segments (segment rest : List TextLeaf) (seen : Bool)
    (plain : ∀ x ∈ segment, x.isBreak = false) :
    laid seen (segments (segment ++ rest)) = going seen (charsAll segment) rest := by
  induction rest generalizing seen segment with
  | nil =>
    have alone := laid_plain_append plain seen []
    simpa [going, laid] using alone
  | cons next rest ih =>
    cases breaks : next.isBreak with
    | true =>
      have later := ih [] true (by simp)
      rw [segments_before_break breaks, laid_plain_append plain, laid_break breaks, going,
        if_pos breaks, ← List.nil_append rest, later]
      simp [breaks, charsAll]
    | false =>
      have wider : ∀ x ∈ segment ++ [next], x.isBreak = false := by
        simpa [breaks, or_imp, forall_and] using plain
      have further := ih (segment ++ [next]) seen wider
      rw [going, if_neg (by simp [breaks])]
      simpa [charsAll] using further

end Laying

-- How far a run has come: what has been laid down up to its last break, and the segment after it.
structure Holds (r : OpenRun) (seen : Bool) (done segment : List Char) (notes : Value) : Prop where
  content : ∃ s, r.leaf.content = .text s
  chars : r.leaf.chars = done ++ trimmed seen false segment
  plain : r.leaf.isBreak = false
  ends : r.endsInBreak = (seen && allBlank segment)
  fresh : seen = false → done = []
  annotations : r.leaf.annotations = if seen then .null else notes

section Joining
variable {r : OpenRun} {seen : Bool} {done segment : List Char} {notes : Value} {next : TextLeaf}

theorem Holds.broken (holds : Holds r seen done segment notes) :
    r.broken = (seen && allBlank segment) := by
  rw [OpenRun.broken, holds.plain, holds.ends, Bool.false_or]

theorem trimmed_append (segment more : List Char) :
    trimmed seen false segment ++ (if seen && allBlank segment then trimStart more else more) =
      trimmed seen false (segment ++ more) := by
  cases seen with
  | false => rfl
  | true =>
    cases blank : allBlank segment with
    | true => simp [trimmed, trimStart_append_of_blank blank, trimStart_eq_nil_iff.mpr blank]
    | false => simp [trimmed, trimStart_append_of_seen blank]

theorem isTrue_trimmed (text : ∃ s, next.content = .text s) :
    (next.content.mapText withoutLeadingBlanks).isTrue = !allBlank next.chars := by
  obtain ⟨s, content⟩ := text
  have empty : trimStart s.toList = [] ↔ allBlank s.toList = true := trimStart_eq_nil_iff
  cases blank : allBlank s.toList <;>
    simp_all [Value.isTrue, Value.mapText, chars, Value.text?, withoutLeadingBlanks]

theorem endsInBreak_join_plain (text : ∃ s, next.content = .text s) (plain : next.isBreak = false)
    (ends : r.endsInBreak = r.broken) :
    (r.join next).endsInBreak = (r.broken && allBlank next.chars) := by
  have step : (r.join next).endsInBreak =
      (r.endsInBreak &&
        !(if r.broken then next.content.mapText withoutLeadingBlanks else next.content).isTrue) := by
    simp [OpenRun.join, OpenRun.broken, plain]
  rw [step, ends]
  cases r.broken with
  | false => rfl
  | true => simp [isTrue_trimmed text]

theorem annotations_join : (r.join next).leaf.annotations =
    if r.broken || next.isBreak then .null else r.leaf.annotations := rfl

theorem Holds.join_plain (holds : Holds r seen done segment notes)
    (text : ∃ s, next.content = .text s) (plain : next.isBreak = false) :
    Holds (r.join next) seen done (segment ++ next.chars) notes where
  content := content_join holds.content text
  chars := by
    rw [chars_join holds.content text, plain, holds.broken, holds.chars, ← trimmed_append]
    simp
  plain := isBreak_join
  ends := by
    have same : r.endsInBreak = r.broken := by rw [holds.broken, holds.ends]
    rw [endsInBreak_join_plain text plain same, holds.broken, allBlank_append, Bool.and_assoc]
  fresh := holds.fresh
  annotations := by
    rw [annotations_join, plain, holds.broken, holds.annotations]
    cases seen <;> simp

theorem Holds.join_break (holds : Holds r seen done segment notes)
    (text : ∃ s, next.content = .text s) (breaks : next.isBreak = true) :
    Holds (r.join next) true (done ++ trimmed seen true segment ++ next.chars) [] notes where
  content := content_join holds.content text
  chars := by
    rw [chars_join holds.content text, breaks, holds.broken, holds.chars]
    cases seen with
    | false =>
      rw [holds.fresh rfl]
      simp [trimmed]
    | true =>
      cases blank : allBlank segment with
      | true => simp [trimmed, trimStart_eq_nil_iff.mpr blank]
      | false =>
        have inner : allBlank (trimStart segment) = false := by rw [allBlank_trimStart, blank]
        simp [trimmed, trimEnd_append_of_seen done inner]
  plain := isBreak_join
  ends := by simp [OpenRun.join, breaks, allBlank]
  fresh := by simp
  annotations := by simp [annotations_join, breaks]

theorem Holds.foldl {rest : List TextLeaf} (holds : Holds r seen done segment notes)
    (texts : ∀ leaf ∈ rest, ∃ s, leaf.content = .text s) :
    (rest.foldl OpenRun.join r).leaf =
      { r.leaf with
        content := .text (.ofList (done ++ going seen segment rest))
        annotations := if seen || rest.any isBreak then .null else notes } := by
  induction rest generalizing r seen done segment with
  | nil =>
    obtain ⟨s, content⟩ := holds.content
    have chars := holds.chars
    have annotations := holds.annotations
    rw [TextLeaf.chars, content] at chars
    simp only [List.foldl_nil, going, ← chars, List.any_nil, Bool.or_false, ← annotations,
      Value.text?, Option.getD_some, String.ofList_toList, ← content]
  | cons next rest ih =>
    have text := texts next List.mem_cons_self
    have others : ∀ leaf ∈ rest, ∃ s, leaf.content = .text s :=
      fun leaf member => texts leaf (List.mem_cons_of_mem _ member)
    rw [List.foldl_cons, going, List.any_cons]
    cases breaks : next.isBreak with
    | true =>
      rw [ih (holds.join_break text breaks) others]
      simp [OpenRun.join, List.append_assoc]
    | false =>
      rw [ih (holds.join_plain text breaks) others]
      simp [OpenRun.join]

end Joining

theorem Holds.start {leaf : TextLeaf} (text : ∃ s, leaf.content = .text s)
    (plain : leaf.isBreak = false) :
    Holds (.start leaf) false [] leaf.chars leaf.annotations :=
  ⟨text, rfl, plain, rfl, fun _ => rfl, rfl⟩

section Blending
variable {first next : TextLeaf} {rest : List TextLeaf}

theorem blend_plain (plain : first.isBreak = false)
    (texts : ∀ leaf ∈ first :: rest, ∃ s, leaf.content = .text s) :
    blend (first :: rest) = some (rest.foldl OpenRun.join (.start first)).leaf := by
  have whole := laid_segments [first] rest false (by simpa using plain)
  have folded := (Holds.start (texts first List.mem_cons_self) plain).foldl
    fun leaf member => texts leaf (List.mem_cons_of_mem _ member)
  rw [folded, blend, ← List.singleton_append, whole]
  cases rest <;> simp [charsAll, OpenRun.start, plain]

theorem Holds.begin_break (text : ∃ s, first.content = .text s) (breaks : first.isBreak = true)
    (other : ∃ s, next.content = .text s) (again : next.isBreak = true) :
    Holds ((OpenRun.start first).join next) true (first.chars ++ next.chars) [] .null where
  content := content_join text other
  chars := by
    rw [chars_join text other]
    simp [again, OpenRun.broken, OpenRun.start, breaks]
  plain := isBreak_join
  ends := by simp [OpenRun.join, again, allBlank]
  fresh := by simp
  annotations := by simp [annotations_join, again]

theorem Holds.begin_seen (text : ∃ s, first.content = .text s) (breaks : first.isBreak = true)
    (other : ∃ s, next.content = .text s) (plain : next.isBreak = false)
    (seen : allBlank next.chars = false) :
    Holds ((OpenRun.start first).join next) true first.chars next.chars .null where
  content := content_join text other
  chars := by
    rw [chars_join text other]
    simp [plain, OpenRun.broken, OpenRun.start, breaks, trimmed]
  plain := isBreak_join
  ends := by simp [OpenRun.join, OpenRun.start, plain, seen]
  fresh := by simp
  annotations := by simp [annotations_join, OpenRun.broken, OpenRun.start, breaks]

theorem join_forgotten (text : ∃ s, first.content = .text s) (breaks : first.isBreak = true)
    (other : ∃ s, next.content = .text s) (plain : next.isBreak = false)
    (blank : allBlank next.chars = true) :
    (OpenRun.start first).join next = .start { first with annotations := .null } := by
  obtain ⟨s, content⟩ := text
  obtain ⟨t, nothing⟩ := other
  have gone : trimStart t.toList = [] := by
    rw [trimStart_eq_nil_iff, ← blank, chars, nothing]
    rfl
  simp [OpenRun.join, OpenRun.start, breaks, plain, content, nothing, Value.mapText,
    withoutLeadingBlanks, gone, Value.joined]

theorem blend_break (breaks : first.isBreak = true) :
    blend (first :: rest) = some
      { first with
        content := .text (.ofList (first.chars ++ going true [] rest))
        annotations := if rest.isEmpty then first.annotations else .null } := by
  have later := laid_segments [] rest true (by simp)
  rw [List.nil_append] at later
  rw [blend, segments_break breaks, laid_break breaks, later]
  cases rest <;> simp [charsAll, breaks]

theorem blend_heeded (texts : ∀ leaf ∈ first :: rest, ∃ s, leaf.content = .text s) :
    blend (heeded (first :: rest)) = some (rest.foldl OpenRun.join (.start first)).leaf := by
  have text := texts first List.mem_cons_self
  cases breaks : first.isBreak with
  | false =>
    have kept : forgets (first :: rest) = false := by cases rest <;> simp [forgets, breaks]
    rw [heeded_of_kept kept, blend_plain breaks texts]
  | true =>
    cases rest with
    | nil =>
      have whole : Value.text (.ofList (first.chars ++ going true [] [])) = first.content := by
        obtain ⟨s, content⟩ := text
        simp [going, chars, content, Value.text?]
      rw [heeded_of_kept rfl, blend_break breaks, whole]
      rfl
    | cons next rest =>
      have other := texts next (by simp)
      have more : ∀ leaf ∈ rest, ∃ s, leaf.content = .text s :=
        fun leaf member => texts leaf (by simp [member])
      rw [List.foldl_cons]
      cases again : next.isBreak with
      | true =>
        have kept : forgets (first :: next :: rest) = false := by simp [forgets, again]
        rw [heeded_of_kept kept, blend_break breaks,
          (Holds.begin_break text breaks other again).foldl more]
        simp [going, again, OpenRun.join, OpenRun.start]
      | false =>
        cases blank : allBlank next.chars with
        | false =>
          have kept : forgets (first :: next :: rest) = false := by simp [forgets, blank]
          rw [heeded_of_kept kept, blend_break breaks,
            (Holds.begin_seen text breaks other again blank).foldl more]
          simp [going, again, OpenRun.join, OpenRun.start]
        | true =>
          have lost : forgets (first :: next :: rest) = true := by
            simp [forgets, breaks, again, blank]
          rw [join_forgotten text breaks other again blank, heeded, if_pos lost]
          refine blend_plain rfl fun leaf member => ?_
          rcases List.mem_cons.mp member with rfl | later
          · exact text
          · exact more leaf later

theorem blend_heeded_content (run : List TextLeaf) :
    ∃ content, blend (heeded run) = (blend run).map fun leaf => { leaf with content := content } := by
  cases lost : forgets run with
  | false =>
    rw [heeded_of_kept lost]
    cases run with
    | nil => exact ⟨.null, rfl⟩
    | cons first rest => exact ⟨_, rfl⟩
  | true =>
    match run with
    | [] | [_] => cases lost
    | first :: next :: rest =>
      have breaks : first.isBreak = true := by
        simp only [forgets, Bool.and_eq_true] at lost
        exact lost.1.1
      rw [heeded, if_pos lost]
      exact ⟨_, by simp [blend, breaks]; rfl⟩

end Blending

end TextLeaf

namespace Node

def leaf? : Node → Option TextLeaf
  | .text leaf => some leaf
  | _ => none

def joins : Node → Node → Bool
  | .text a, .text b => a.sameMarks b
  | _, _ => false

-- A list cut into its runs. A node that is no text is a run of its own.
def runs (nodes : List Node) : List (List Node) := nodes.splitBy joins

def replaced (stand : List TextLeaf → Option TextLeaf) (run : List Node) : List Node :=
  match stand (run.filterMap leaf?) with
  | some leaf => [.text leaf]
  | none => run

theorem mergeFrom_texts_of_same {r : OpenRun} {texts : List TextLeaf}
    (same : ∀ leaf ∈ texts, r.leaf.sameMarks leaf = true) (rest : List Node) :
    mergeFrom (some r) (texts.map .text ++ rest) =
      mergeFrom (some (texts.foldl OpenRun.join r)) rest := by
  induction texts generalizing r with
  | nil => rfl
  | cons leaf texts ih =>
    rw [List.map_cons, List.cons_append, mergeFrom, if_pos (same leaf List.mem_cons_self),
      List.foldl_cons]
    exact ih fun other member => same other (List.mem_cons_of_mem _ member)

theorem marks_foldl_join (texts : List TextLeaf) (r : OpenRun) :
    (texts.foldl OpenRun.join r).leaf.marks = r.leaf.marks := by
  induction texts generalizing r with
  | nil => rfl
  | cons leaf texts ih => exact ih (r.join leaf)

theorem mergeFrom_closed {r : OpenRun} {rest : List Node}
    (apart : ∀ n ∈ rest.head?, joins (.text r.leaf) n = false) :
    mergeFrom (some r) rest = .text r.leaf :: mergeFrom none rest := by
  cases rest with
  | nil => rfl
  | cons n rest =>
    have differ := apart n rfl
    cases n with
    | text leaf =>
      have other : r.leaf.sameMarks leaf = false := differ
      simp only [mergeFrom, other, Bool.false_eq_true, if_false]
    | _ => rfl

inductive Run : List Node → Prop where
  | texts {first : TextLeaf} {rest : List TextLeaf}
      (same : ∀ leaf ∈ rest, first.sameMarks leaf = true) :
      Run (.text first :: rest.map .text)
  | other {n : Node} (apart : ∀ leaf, n ≠ .text leaf) : Run [n]

def Typed (nodes : List Node) : Prop := ∀ leaf, .text leaf ∈ nodes → leaf.Typed

end Node

theorem TextLeaf.Typed.sameMarks_iff {a b : TextLeaf} (left : a.Typed) (right : b.Typed) :
    a.sameMarks b = true ↔ Marks.held a.marks = Marks.held b.marks :=
  Marks.same_iff_of_flags left.marks right.marks

theorem TextLeaf.Typed.sameMarks_self {leaf : TextLeaf} (typed : leaf.Typed) :
    leaf.sameMarks leaf = true := (typed.sameMarks_iff typed).mpr rfl

namespace Node

theorem Typed.of_subset {nodes part : List Node} (typed : Typed nodes) (inside : part ⊆ nodes) :
    Typed part := fun leaf member => typed leaf (inside member)

theorem Run.of_chain {run : List Node} (typed : Typed run) (some : run ≠ [])
    (chain : run.IsChain fun a b => joins a b = true) : Run run := by
  induction run with
  | nil => exact absurd rfl some
  | cons n rest ih =>
    cases rest with
    | nil =>
      rcases n.text_or_other with ⟨leaf, rfl⟩ | apart
      · exact @Run.texts leaf [] (by simp)
      · exact .other apart
    | cons m rest =>
      obtain ⟨joined, chained⟩ := List.isChain_cons_cons.mp chain
      have later := ih (typed.of_subset (List.subset_cons_self ..)) (by simp) chained
      cases later with
      | other apart =>
        cases n <;> cases m <;> first | exact absurd rfl (apart _) | cases joined
      | @texts second others same =>
        cases n with
        | text first =>
          have here := typed first (by simp)
          have there := typed second (by simp)
          have equal := (here.sameMarks_iff there).mp joined
          refine @Run.texts first (second :: others) fun leaf member => ?_
          rcases List.mem_cons.mp member with rfl | later
          · exact joined
          · have far := typed leaf (by simp [later])
            exact (here.sameMarks_iff far).mpr
              (equal.trans ((there.sameMarks_iff far).mp (same leaf later)))
        | _ => cases joined

theorem Run.sameMarks {run : List Node} (whole : Run run) (typed : Typed run) {a b : TextLeaf}
    (first : .text a ∈ run) (second : .text b ∈ run) : a.sameMarks b = true := by
  cases whole with
  | other apart =>
    exact absurd (List.mem_singleton.mp first).symm (apart a)
  | @texts lead rest same =>
    have leading := typed lead (by simp)
    have held : ∀ leaf, .text leaf ∈ Node.text lead :: rest.map .text →
        Marks.held lead.marks = Marks.held leaf.marks := by
      intro leaf member
      refine (leading.sameMarks_iff (typed leaf member)).mp ?_
      rcases List.mem_cons.mp member with here | later
      · cases here
        exact leading.sameMarks_self
      · obtain ⟨x, inside, rfl⟩ : ∃ x ∈ rest, x = leaf := by simpa using later
        exact same x inside
    exact ((typed a first).sameMarks_iff (typed b second)).mpr
      ((held a first).symm.trans (held b second))

theorem joins_congr {a b : TextLeaf} {n : Node} (left : a.Typed) (right : b.Typed)
    (marks : ∀ leaf, n = .text leaf → leaf.Typed) (same : a.sameMarks b = true) :
    joins (.text a) n = joins (.text b) n := by
  cases n with
  | text leaf =>
    have typed := marks leaf rfl
    have held := (left.sameMarks_iff right).mp same
    rw [joins, joins, Bool.eq_iff_iff, left.sameMarks_iff typed, right.sameMarks_iff typed, held]
  | _ => rfl

theorem joins_of_marks {a b : TextLeaf} (same : a.marks = b.marks) (n : Node) :
    joins (.text a) n = joins (.text b) n := by
  cases n <;> simp [joins, TextLeaf.sameMarks, same]

theorem filterMap_leaf?_texts (texts : List TextLeaf) :
    (texts.map Node.text).filterMap leaf? = texts := by
  induction texts with
  | nil => rfl
  | cons leaf texts ih => simp [leaf?, ih]

theorem replaced_other (stand : List TextLeaf → Option TextLeaf) (nothing : stand [] = none)
    {n : Node} (apart : ∀ leaf, n ≠ .text leaf) : replaced stand [n] = [n] := by
  have none : [n].filterMap leaf? = [] := by
    cases n with
    | text leaf => exact absurd rfl (apart leaf)
    | _ => rfl
  rw [replaced, none, nothing]

theorem mergeFrom_run {run more : List Node} (whole : Run run) (typed : Typed (run ++ more))
    (cut : ∀ n ∈ more.head?, ∀ last ∈ run.getLast?, joins last n = false) :
    mergeFrom none (run ++ more) =
      replaced (fun texts => TextLeaf.blend (TextLeaf.heeded texts)) run ++ mergeFrom none more := by
  cases whole with
  | other apart =>
    rw [replaced_other _ rfl apart]
    exact mergeFrom_of_other apart none more
  | @texts first rest same =>
    have leading := typed first (by simp)
    have content : ∀ leaf ∈ first :: rest, ∃ s, leaf.content = .text s := by
      intro leaf member
      refine (typed leaf ?_).content
      rcases List.mem_cons.mp member with rfl | later <;> simp [*]
    have closed : ∀ n ∈ more.head?,
        joins (.text (rest.foldl OpenRun.join (.start first)).leaf) n = false := by
      intro n next
      have known : ∀ leaf, n = .text leaf → leaf.Typed := by
        rintro leaf rfl
        exact typed leaf (List.mem_append_right _ (List.mem_of_mem_head? next))
      rw [joins_of_marks (marks_foldl_join rest (.start first)) n]
      have last := cut n next
      rcases List.eq_nil_or_concat rest with rfl | ⟨others, leaf, rfl⟩
      · exact last (.text first) rfl
      · have equal := same leaf (by simp)
        rw [OpenRun.start, joins_congr leading (typed leaf (by simp)) known equal]
        refine last (.text leaf) ?_
        rw [List.concat_eq_append, List.map_append, ← List.cons_append]
        exact List.getLast?_concat
    have stands := TextLeaf.blend_heeded content
    have leaves : (Node.text first :: rest.map .text).filterMap leaf? = first :: rest :=
      filterMap_leaf?_texts (first :: rest)
    rw [replaced, leaves, stands, List.cons_append, mergeFrom,
      mergeFrom_texts_of_same (r := .start first) same, mergeFrom_closed closed]
    rfl

theorem mergeFrom_runs {blocks : List (List Node)} (each : ∀ run ∈ blocks, Run run)
    (typed : Typed blocks.flatten)
    (cut : blocks.IsChain fun a b => ∃ ha hb, joins (a.getLast ha) (b.head hb) = false) :
    mergeFrom none blocks.flatten =
      blocks.flatMap (replaced fun texts => TextLeaf.blend (TextLeaf.heeded texts)) := by
  induction blocks with
  | nil => rfl
  | cons run more ih =>
    have later := ih (fun block member => each block (by simp [member]))
      (typed.of_subset (by simp)) cut.tail
    rw [List.flatten_cons, List.flatMap_cons, ← later]
    refine mergeFrom_run (each run (by simp)) typed ?_
    intro n next last ends
    cases more with
    | nil => cases next
    | cons block others =>
      obtain ⟨nonempty, begun, apart⟩ := (List.isChain_cons_cons.mp cut).1
      have head : n = block.head begun := by
        have first : (block :: others).flatten.head? = some (block.head begun) := by
          rw [List.flatten_cons, List.head?_append_of_ne_nil _ begun, List.head?_eq_some_head begun]
        rw [first] at next
        exact (Option.some.inj next).symm
      have end' : last = run.getLast nonempty := by
        rw [List.getLast?_eq_some_getLast nonempty] at ends
        exact (Option.some.inj ends).symm
      rw [head, end']
      exact apart

-- Merging puts one text in the place of every run: the text that the run stands for, unless a
-- break at its start is forgotten, and even then all but the content is as it should be.
theorem merged_blended {nodes : List Node} (typed : Typed nodes) :
    (∀ run ∈ runs nodes, ∀ a b, .text a ∈ run → .text b ∈ run → a.sameMarks b = true) ∧
      merged nodes =
        (runs nodes).flatMap (replaced fun texts => TextLeaf.blend (TextLeaf.heeded texts)) ∧
      (∀ run ∈ runs nodes, ∃ content, TextLeaf.blend (TextLeaf.heeded (run.filterMap leaf?)) =
        (TextLeaf.blend (run.filterMap leaf?)).map fun leaf => { leaf with content := content }) ∧
      ((∀ run ∈ runs nodes, TextLeaf.forgets (run.filterMap leaf?) = false) →
        merged nodes = (runs nodes).flatMap (replaced TextLeaf.blend)) := by
  have whole : (runs nodes).flatten = nodes := List.flatten_splitBy joins nodes
  have inside : ∀ run ∈ runs nodes, Typed run := by
    intro run member
    refine typed.of_subset fun n here => ?_
    rw [← whole]
    exact List.mem_flatten.mpr ⟨run, member, here⟩
  have each : ∀ run ∈ runs nodes, Run run := fun run member =>
    .of_chain (inside run member) (List.ne_nil_of_mem_splitBy member)
      (List.isChain_of_mem_splitBy member)
  have merging := mergeFrom_runs each (by rwa [whole]) (List.isChain_getLast_head_splitBy joins nodes)
  rw [whole] at merging
  refine ⟨fun run member a b => (each run member).sameMarks (inside run member), merging,
    fun run _ => TextLeaf.blend_heeded_content _, fun kept => ?_⟩
  refine merging.trans ?_
  rw [List.flatMap_def, List.flatMap_def]
  refine congrArg List.flatten (List.map_congr_left fun run member => ?_)
  rw [replaced, TextLeaf.heeded_of_kept (kept run member)]
  rfl

def unmarked (s : String) : TextLeaf := ⟨.text s, .null, .null, .null, .null⟩

def lineBreak : TextLeaf := ⟨.text "\n", .null, .null, .null, .record [("source", .text "br")]⟩

theorem unmarked_typed (s : String) : (unmarked s).Typed := ⟨⟨s, rfl⟩, .nothing⟩

theorem lineBreak_typed : lineBreak.Typed := ⟨⟨_, rfl⟩, .nothing⟩

def brokenLine : List Node :=
  [.text (unmarked "a "), .text lineBreak, .text (unmarked " "), .text (unmarked " b"),
    .element ⟨.text "view", .null, .null, .absent, .null⟩ [], .text (unmarked "c")]

theorem brokenLine_blended :
    merged brokenLine = [.text (unmarked "a\nb"),
      .element ⟨.text "view", .null, .null, .absent, .null⟩ [], .text (unmarked "c")] := by
  have typed : Typed brokenLine := by
    intro leaf member
    simp only [brokenLine, List.mem_cons, Node.text.injEq, List.not_mem_nil, or_false] at member
    rcases member with rfl | rfl | rfl | rfl | impossible | rfl
    all_goals first | exact unmarked_typed _ | exact lineBreak_typed | cases impossible
  have kept : ∀ run ∈ runs brokenLine, TextLeaf.forgets (run.filterMap leaf?) = false := by
    decide
  rw [(merged_blended typed).2.2.2 kept]
  rfl

def openedLine : List Node := [.text lineBreak, .text (unmarked " "), .text (unmarked " x")]

theorem openedLine_untrimmed :
    Typed openedLine ∧ merged openedLine = [.text (unmarked "\n x")] ∧
      (runs openedLine).flatMap (replaced TextLeaf.blend) = [.text (unmarked "\nx")] := by
  refine ⟨fun leaf member => ?_, rfl, rfl⟩
  simp only [openedLine, List.mem_cons, Node.text.injEq, List.not_mem_nil, or_false] at member
  rcases member with rfl | rfl | rfl
  · exact lineBreak_typed
  · exact unmarked_typed " "
  · exact unmarked_typed " x"

end Node
end SemanticMarkup
