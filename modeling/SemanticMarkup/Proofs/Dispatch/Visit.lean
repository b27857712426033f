import SemanticMarkup.Proofs.Dispatch.Recursion
import SemanticMarkup.Proofs.Tree.Editing

namespace SemanticMarkup

def Setting.uncounted {κ σ : Type} (s : Setting κ σ) : Setting κ σ :=
  { s with metrics := s.metrics.map fun _ => .empty }

@[simp] theorem Setting.uncounted_time {κ σ : Type} (s : Setting κ σ) (plugin : String) :
    (s.time plugin).uncounted = s.uncounted := by
  cases counts : s.metrics <;> simp [time, uncounted, counts]

@[simp] theorem Setting.uncounted_countWalk {κ σ : Type} (s : Setting κ σ) :
    s.countWalk.uncounted = s.uncounted := by
  cases counts : s.metrics <;> simp [countWalk, uncounted, counts]

theorem Setting.source_of_uncounted {κ σ : Type} {s t : Setting κ σ}
    (same : s.uncounted = t.uncounted) : s.source = t.source := by
  have sources := congrArg Setting.source same
  exact sources

namespace Dispatch
open Walk
variable {κ σ : Type}

def Serves (perform : κ → Handler κ σ) (r : Registry κ) (edit : Node → Node) : Prop :=
  ∀ n s, ∃ s', serve perform (r.forNode n) (n, s) = (.ok (), edit n, s') ∧ s'.uncounted = s.uncounted

-- A visit that only edits, and counts: it leaves what the editing leaves, and fails where the
-- editing stops.
structure Edited {ν : Type} (report : Report κ σ ν Nat) (edited : ν × Bool) (s : Setting κ σ) :
    Prop where
  left : report.left = edited.1
  setting : report.setting.uncounted = s.uncounted
  done : edited.2 = true → ∃ count, report.outcome = .ok count
  stopped : edited.2 = false →
    report.outcome = .error (.tooDeep depthLimit "capability" s.source none)

variable {perform : κ → Handler κ σ} {r : Registry κ} {edit : Node → Node} {levels : Nat}
  {serving : Node → Setting κ σ → Report κ σ Node Unit}

theorem visitEach_edited {depth : Nat}
    (each : ∀ n s, Edited (visit serving depth n s) (editWithin edit levels n) s) (nodes : List Node)
    (s : Setting κ σ) :
    Edited (visitEach (visit serving depth) nodes s) (editList (editWithin edit levels) nodes) s := by
  induction nodes generalizing s with
  | nil => exact ⟨rfl, rfl, fun _ => ⟨0, rfl⟩, by simp [editList]⟩
  | cons first rest ih =>
    have one := each first s
    rw [visitEach, editList]
    generalize visit serving depth first s = report at one ⊢
    generalize editWithin edit levels first = edited at one ⊢
    obtain ⟨outcome, left, t, calls⟩ := report
    obtain ⟨n, done⟩ := edited
    obtain ⟨rfl, same, fine, failed⟩ := one
    dsimp only at same fine failed
    cases done with
    | false =>
      rw [failed rfl]
      exact ⟨rfl, same, by simp, fun _ => rfl⟩
    | true =>
      obtain ⟨count, rfl⟩ := fine rfl
      obtain ⟨others, last, whole, broken⟩ := ih t
      refine ⟨congrArg _ others, last.trans same, fun all => ?_, fun some => ?_⟩
      · obtain ⟨more, counted⟩ := whole all
        exact ⟨count + more, by simp only [counted, Except.map]⟩
      · rw [← Setting.source_of_uncounted same]
        simp only [broken some, Except.map]

theorem visit_edited
    (edits : ∀ n s, ∃ t calls, serving n s = ⟨.ok (), edit n, t, calls⟩ ∧ t.uncounted = s.uncounted)
    {depth : Nat} (n : Node) (s : Setting κ σ) (deep : depth + levels = maxDepth + 1) :
    Edited (visit serving depth n s) (editWithin edit levels n) s := by
  induction levels generalizing depth n s with
  | zero =>
    rw [visit_tooDeep (by omega)]
    exact ⟨rfl, rfl, nofun, fun _ => rfl⟩
  | succ levels ih =>
    obtain ⟨t, calls, served, same⟩ := edits n s
    have lower : depth + 1 + levels = maxDepth + 1 := by omega
    obtain ⟨left, last, whole, broken⟩ :=
      visitEach_edited (fun m u => ih m u lower) (edit n).children t
    rw [visit, if_neg (by omega), served, editWithin_succ]
    refine ⟨congrArg (edit n).withChildren left, last.trans same, fun all => ?_, fun some => ?_⟩
    · obtain ⟨count, counted⟩ := whole all
      exact ⟨count + 1, by simp only [counted, Except.map]⟩
    · rw [← Setting.source_of_uncounted same]
      simp only [broken some, Except.map]

theorem walk_root (serves : Serves perform r edit) (root : Node) (s : Setting κ σ) :
    ∃ s' more, s'.uncounted = s.uncounted ∧
      walk perform r root [] s 0 =
        (if (editAll edit root).2 then .ok more
          else .error (.tooDeep depthLimit "capability" s.source none),
          (editAll edit root).1, s') := by
  have agrees : Agrees perform r fun n s =>
      ⟨.ok (), edit n, (serve perform (r.forNode n) (n, s)).2.2, []⟩ := by
    intro n s
    obtain ⟨t, served, _⟩ := serves n s
    dsimp only
    rw [served]
  have edits : ∀ n s, ∃ t calls,
      (⟨.ok (), edit n, (serve perform (r.forNode n) (n, s)).2.2, []⟩ : Report κ σ Node Unit) =
        ⟨.ok (), edit n, t, calls⟩ ∧ t.uncounted = s.uncounted := by
    intro n s
    obtain ⟨t, served, same⟩ := serves n s
    exact ⟨t, [], by rw [served], same⟩
  obtain ⟨left, same, done, stopped⟩ :=
    visit_edited edits root s (Nat.zero_add (maxDepth + 1))
  rw [walk_top agrees, left]
  unfold editAll
  cases all : (editWithin edit (maxDepth + 1) root).2 with
  | true =>
    obtain ⟨more, counted⟩ := done all
    exact ⟨_, more, same, by rw [counted]; rfl⟩
  | false => exact ⟨_, 0, same, by rw [stopped all]; rfl⟩

end Dispatch
end SemanticMarkup
