import SemanticMarkup.Fuzz.Campaign
import SemanticMarkup.Proofs.Decimal.Differences
import SemanticMarkup.Proofs.Fuzz.Streams

namespace SemanticMarkup.Fuzz
open Decimal (Binary64)

namespace Outcome

-- Came back, and not after more than the patience allows.
def Prompt (o : Outcome) : Prop := ∃ seconds, o = .returned seconds ∧ patience.less seconds = false

theorem exact_patience : ∃ m e, patience = .finite false m e ∧ Binary64.exact false m e = 5 := by
  refine ⟨5 * 2 ^ 50, -50, by decide +kernel, ?_⟩
  decide +kernel

theorem prompt_returned_iff (s : Bool) (m : Nat) (e : Int) :
    (returned (.finite s m e)).Prompt ↔ Binary64.exact s m e ≤ 5 := by
  obtain ⟨n, f, same, five⟩ := exact_patience
  have meaning : (returned (.finite s m e)).Prompt ↔ patience.less (.finite s m e) = false := by
    simp [Prompt]
  rw [meaning, same, Binary64.less, decide_eq_false_iff_not, five, not_lt]

theorem prompt_iff (o : Outcome) : o.Prompt ↔ o.crashes = false ∧ o.hangs = false := by
  cases o with
  | returned seconds => simp [Prompt, crashes, hangs]
  | failed => simp [Prompt, crashes]

end Outcome

namespace Trial

theorem counted_once (t : Trial) :
    (if t.succeeds then 1 else 0) + (if t.crashes then 1 else 0) + (if t.hangs then 1 else 0) = 1 := by
  cases t with
  | mk number document outcome =>
    cases outcome with
    | returned seconds =>
      by_cases slow : Outcome.patience.less seconds = true <;>
        simp [succeeds, crashes, hangs, Outcome.succeeds, Outcome.crashes, Outcome.hangs, slow]
    | failed => rfl

theorem counts_add (trials : List Trial) :
    trials.countP succeeds + trials.countP crashes + trials.countP hangs = trials.length := by
  induction trials with
  | nil => rfl
  | cons t rest ih =>
    have once := counted_once t
    rw [List.countP_cons, List.countP_cons, List.countP_cons, List.length_cons]
    omega

theorem all_prompt_iff (trials : List Trial) :
    ((trials.filter crashes).isEmpty && (trials.filter hangs).isEmpty) = true ↔
      ∀ t ∈ trials, t.outcome.Prompt := by
  rw [Bool.and_eq_true, List.isEmpty_iff, List.isEmpty_iff, List.filter_eq_nil_iff,
    List.filter_eq_nil_iff, ← forall₂_and]
  refine forall₂_congr fun t _ => ?_
  rw [Outcome.prompt_iff, Bool.not_eq_true, Bool.not_eq_true]
  rfl

end Trial

def Reading (x : Binary64) : Prop :=
  ∃ s m e, x = .finite s m e ∧ Binary64.leastExponent ≤ e

theorem isZero_elapsed {began ended : Binary64} (first : Reading began) (second : Reading ended)
    (forward : ended.less began = false) : (ended.minus began).isZero = !began.less ended := by
  obtain ⟨s, m, e, rfl, fine⟩ := first
  obtain ⟨t, n, f, rfl, also⟩ := second
  have ordered : ¬Binary64.exact t n f < Binary64.exact s m e := of_decide_eq_false forward
  rw [Bool.eq_iff_iff, Binary64.isZero_minus_iff also fine, Binary64.less, Bool.not_eq_true',
    decide_eq_false_iff_not]
  exact ⟨fun same => same ▸ lt_irrefl _, fun stays => le_antisymm (not_lt.mp stays) (not_lt.mp ordered)⟩

namespace Report

def overflow : Fault := .overflow "int too large to convert to float"
def division : Fault := .division "float division by zero"

theorem rate_beyond {n : Nat} (large : Binary64.overflowSize ≤ n) (seconds : Binary64) :
    rate n seconds = .error overflow := by
  unfold rate Binary64.ofInt?
  rw [Int.natAbs_natCast, if_pos large]
  rfl

theorem rate_still {n : Nat} (small : n < Binary64.overflowSize) {seconds : Binary64}
    (still : seconds.isZero = true) : rate n seconds = .error division := by
  unfold rate Binary64.ofInt?
  rw [Int.natAbs_natCast, if_neg (Nat.not_le.mpr small)]
  exact if_pos still

theorem rate_moving {n : Nat} (small : n < Binary64.overflowSize) {seconds : Binary64}
    (moving : seconds.isZero = false) : ∃ rate, Report.rate n seconds = .ok rate := by
  unfold rate Binary64.ofInt?
  rw [Int.natAbs_natCast, if_neg (Nat.not_le.mpr small)]
  exact ⟨_, if_neg (Bool.eq_false_iff.mp moving)⟩

def tally (p : Plan) (trials : List Trial) : List String :=
  heading "FUZZING RESULTS" ++ [
    "Total tests:    " ++ p.tests.shown,
    "Successes:      " ++ toString (trials.countP Trial.succeeds),
    "Crashes:        " ++ toString (trials.countP Trial.crashes),
    "Hangs (>5s):    " ++ toString (trials.countP Trial.hangs)]

def timeLine (seconds : Binary64) : String :=
  "Total time:     " ++ Trial.secondsText seconds ++ "s"

theorem counts_eq (p : Plan) (trials : List Trial) (seconds : Binary64) :
    counts p trials seconds = tally p trials ++ [timeLine seconds] := by
  unfold counts tally
  rw [List.append_assoc]
  rfl

theorem close_failed {p : Plan} {n : Nat} {trials : List Trial} {clock : Nat → Binary64} {f : Fault}
    (failed : rate n ((clock 1).minus (clock 0)) = .error f) :
    close p n trials clock =
      (tally p trials ++ timeLine ((clock 1).minus (clock 0)) :: [], [], .error f) := by
  unfold close
  dsimp only
  rw [failed, counts_eq]

theorem close_rated {p : Plan} {n : Nat} {trials : List Trial} {clock : Nat → Binary64}
    {r : Binary64} (unsaved : p.saveFailures = false)
    (rated : rate n ((clock 1).minus (clock 0)) = .ok r) :
    ∃ more verdict, close p n trials clock =
        (tally p trials ++ timeLine ((clock 1).minus (clock 0)) :: more, [], .ok verdict) ∧
      (verdict = true ↔ ∀ t ∈ trials, t.outcome.Prompt) := by
  refine ⟨[rateLine r] ++ crashLines (trials.filter Trial.crashes) ++
    hangLines (trials.filter Trial.hangs), _, ?_, Trial.all_prompt_iff trials⟩
  unfold close
  dsimp only
  rw [rated, unsaved, counts_eq]
  simp only [Bool.false_and, Bool.false_eq_true, if_false, List.append_assoc,
    List.cons_append, List.nil_append]

end Report

variable {S : Type} [RandomSource S]

theorem map_document_trialsOf (test : Nat → String → Outcome) (documents : List String) :
    (trialsOf test documents).map Trial.document = documents := by
  rw [trialsOf, List.map_map]
  exact List.zipIdx_map_fst 0 documents

theorem length_trialsOf (test : Nat → String → Outcome) (documents : List String) :
    (trialsOf test documents).length = documents.length := by
  simp [trialsOf]

theorem trialsOf_tested {test : Nat → String → Outcome} {documents : List String} {i : Nat} {t : Trial}
    (stands : (trialsOf test documents)[i]? = some t) :
    t.number = i ∧ t.outcome = test i t.document := by
  simp only [trialsOf, List.getElem?_map, List.getElem?_zipIdx, Option.map_eq_some_iff] at stands
  obtain ⟨_, ⟨document, _, rfl⟩, rfl⟩ := stands
  simp

theorem Plan.run_drawn {p : Plan} {o : Options (HandlerName Empty) Unit} {n : Nat}
    (known : p.options = .ok o) (asked : p.count = .ok (n : Int)) (clock : Nat → Binary64)
    (test : Nat → String → Outcome) (source : S) :
    ∃ drawn after, documents n (seeded p.seed source) = (drawn, after) ∧ drawn.length = n ∧
      p.run clock test source =
        ⟨(Report.close p n (trialsOf test drawn) clock).2.2,
          p.opening :: (trialsOf test drawn).flatMap p.progress ++
            (Report.close p n (trialsOf test drawn) clock).1,
          (Report.close p n (trialsOf test drawn) clock).2.1, trialsOf test drawn, after⟩ := by
  have length := Gen.length_times n document (seeded p.seed source)
  rcases made : documents n (seeded p.seed source) with ⟨drawn, after⟩
  refine ⟨drawn, after, rfl, ?_, by simp only [run, known, asked, made]⟩
  rw [← length]
  exact congrArg (fun made => made.1.length) made.symm

-- A campaign in which time went by comes to its verdict, whatever the tests did; one in which the
-- clock stood still fails with a fault of its own, and all that it had to tell after the counts
-- is lost.
theorem Plan.run_verdict {p : Plan} {o : Options (HandlerName Empty) Unit} {n : Nat}
    (known : p.options = .ok o) (asked : p.count = .ok (n : Int)) (unsaved : p.saveFailures = false)
    {clock : Nat → Binary64} (began : Reading (clock 0)) (ended : Reading (clock 1))
    (forward : (clock 1).less (clock 0) = false) (test : Nat → String → Outcome) (source : S) :
    ∃ trials more, (p.run clock test source).trials = trials ∧ trials.length = n ∧
      (∀ i t, trials[i]? = some t → t.number = i ∧ t.outcome = test i t.document) ∧
      (p.run clock test source).printed =
        p.opening :: trials.flatMap p.progress ++
          (Report.tally p trials ++ Report.timeLine ((clock 1).minus (clock 0)) :: more) ∧
      trials.countP Trial.succeeds + trials.countP Trial.crashes + trials.countP Trial.hangs = n ∧
      (n < Binary64.overflowSize → (clock 0).less (clock 1) = true →
        ∃ verdict, (p.run clock test source).result = .ok verdict ∧
          (verdict = true ↔ ∀ t ∈ trials, t.outcome.Prompt)) ∧
      (n < Binary64.overflowSize → (clock 0).less (clock 1) = false →
        (p.run clock test source).result = .error Report.division ∧ more = []) ∧
      (Binary64.overflowSize ≤ n →
        (p.run clock test source).result = .error Report.overflow ∧ more = []) := by
  obtain ⟨drawn, after, _, length, ran⟩ := run_drawn known asked clock test source
  obtain ⟨trials, made⟩ : ∃ trials, trials = trialsOf test drawn := ⟨_, rfl⟩
  rw [← made] at ran
  have tested : ∀ i t, trials[i]? = some t → t.number = i ∧ t.outcome = test i t.document :=
    fun _ _ stands => trialsOf_tested (made ▸ stands)
  have long : trials.length = n := by rw [made, length_trialsOf, length]
  have added := Trial.counts_add trials
  rw [long] at added
  rw [ran]
  have elapsed := isZero_elapsed began ended forward
  rcases Nat.lt_or_ge n Binary64.overflowSize with small | large
  · have unreached : ¬Binary64.overflowSize ≤ n := Nat.not_le.mpr small
    cases moves : (clock 0).less (clock 1) with
    | true =>
      rw [moves] at elapsed
      obtain ⟨rate, rated⟩ := Report.rate_moving small elapsed
      obtain ⟨more, verdict, closed, calm⟩ := @Report.close_rated p n trials clock rate unsaved rated
      rw [closed]
      exact ⟨trials, more, rfl, long, tested, rfl, added, fun _ _ => ⟨verdict, rfl, calm⟩,
        fun _ still => (nomatch still), fun large => absurd large unreached⟩
    | false =>
      rw [moves] at elapsed
      rw [Report.close_failed (Report.rate_still small elapsed)]
      exact ⟨trials, [], rfl, long, tested, rfl, added, fun _ moved => (nomatch moved),
        fun _ _ => ⟨rfl, rfl⟩, fun large => absurd large unreached⟩
  · have beyond : ¬n < Binary64.overflowSize := Nat.not_lt.mpr large
    rw [Report.close_failed (Report.rate_beyond large _)]
    exact ⟨trials, [], rfl, long, tested, rfl, added, fun small => absurd small beyond,
      fun small => absurd small beyond, fun _ => ⟨rfl, rfl⟩⟩

def single : Plan := ⟨.whole 1 Text.short_one, .null, false, false, .text StyleMode.inline.name⟩

def ticking : Nat → Binary64
  | 0 => .zero false
  | _ => .finite false (2 ^ 52) (-52)

def standing (_ : Nat) : Binary64 := .zero false

def raising (_ : Nat) (_ : String) : Outcome := .failed "boom" "TRACEBACK"

def origin : Congruential := ⟨0⟩

theorem reading_zero : Reading (.zero false) := ⟨false, 0, Binary64.leastExponent, rfl, Int.le_refl _⟩

theorem single_known : ∃ o, single.options = .ok o := ⟨_, rfl⟩

theorem single_small : 1 < Binary64.overflowSize := by decide +kernel

theorem single_refuted : (single.run ticking raising origin).result = .ok false := by
  obtain ⟨o, known⟩ := single_known
  have ended : Reading (ticking 1) := ⟨false, 2 ^ 52, -52, rfl, by decide⟩
  obtain ⟨trials, _, _, long, tested, _, _, moving, _⟩ :=
    Plan.run_verdict (n := 1) known rfl rfl reading_zero ended (by decide +kernel) raising origin
  obtain ⟨verdict, result, calm⟩ := moving single_small (by decide +kernel)
  obtain ⟨t, rfl⟩ := List.length_eq_one_iff.mp long
  have failed : ¬t.outcome.Prompt := by
    rw [(tested 0 t rfl).2]
    rintro ⟨seconds, returned, _⟩
    cases returned
  cases verdict with
  | false => exact result
  | true => exact absurd (calm.mp rfl t List.mem_cons_self) failed

theorem single_undecided :
    (single.run standing raising origin).result = .error Report.division ∧
      ∃ t, (single.run standing raising origin).trials = [t] ∧ t.crashes = true := by
  obtain ⟨o, known⟩ := single_known
  obtain ⟨drawn, after, _, length, ran⟩ :=
    Plan.run_drawn (n := 1) known rfl standing raising origin
  have still : ((standing 1).minus (standing 0)).isZero = true := by decide +kernel
  rw [Report.close_failed (Report.rate_still single_small still)] at ran
  obtain ⟨page, rfl⟩ := List.length_eq_one_iff.mp length
  rw [ran]
  exact ⟨rfl, ⟨0, page, raising 0 page⟩, rfl, rfl⟩

end SemanticMarkup.Fuzz
