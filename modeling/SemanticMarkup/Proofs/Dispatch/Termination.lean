import Mathlib.Order.WellFounded
import SemanticMarkup.Proofs.Dispatch.Calls

namespace SemanticMarkup.Dispatch
variable {κ σ : Type} {perform : κ → Handler κ σ}

theorem serve_error {entries : List (Entry κ)} {n left : Node} {s after : Setting κ σ} {f : Fault}
    (served : serve perform entries (n, s) = (.error f, left, after)) :
    ∃ e ∈ entries, ∃ m t g, (perform e.handler).run.run (m, t) = (.error g, left, after) ∧
      f = Plugin.blame e.owner "capability" after.source g := by
  induction entries generalizing n s with
  | nil => cases served
  | cons e rest ih =>
    rw [serve] at served
    split at served
    · obtain ⟨later, member, raised⟩ := ih served
      exact ⟨later, List.mem_cons_of_mem _ member, raised⟩
    · obtain ⟨later, member, raised⟩ := ih served
      exact ⟨later, List.mem_cons_of_mem _ member, raised⟩
    · rename_i g m t ran
      cases served
      exact ⟨e, List.mem_cons_self, n, s, g, ran, rfl⟩

namespace Standing

def turns (perform : κ → Handler κ σ) : Nat → Standing κ σ → Step κ σ
  | 0, here => .on here
  | k + 1, here =>
    match here.turn perform with
    | .on next => turns perform k next
    | .ended ending => .ended ending

-- The ways in which a walk can end: all nodes have been visited, the node at hand is too deep, or
-- one of the handlers that are there for it fails.
inductive Ends (perform : κ → Handler κ σ) (here : Standing κ σ) : Except Fault Nat → Prop where
  | visited : Ends perform here (.ok (here.visited + 1))
  | tooDeep (deep : maxDepth < here.frames.length) :
    Ends perform here (.error (.tooDeep depthLimit "capability" here.setting.source none))
  | raised {e : Entry κ} (asked : e ∈ (here.dispatcher.ask here.node.question).1) {n left : Node}
    {s after : Setting κ σ} {g : Fault}
    (failed : (perform e.handler).run.run (n, s) = (.error g, left, after)) :
    Ends perform here (.error (Plugin.blame e.owner "capability" after.source g))

theorem ends_of_turn {here : Standing κ σ} {ending : Ending κ σ}
    (last : here.turn perform = .ended ending) : Ends perform here ending.outcome := by
  unfold turn at last
  split at last
  · rename_i deep
    cases last
    exact .tooDeep deep
  · dsimp only at last
    unfold served at last
    split at last
    · rename_i f left after ran
      cases last
      obtain ⟨e, asked, n, s, g, failed, rfl⟩ := serve_error ran
      exact .raised asked failed
    · split at last
      · cases last
      · split at last
        · cases last
        · cases last
          exact .visited

theorem visited_of_turn {here next : Standing κ σ} (step : here.turn perform = .on next) :
    next.visited = here.visited + 1 := by
  unfold turn at step
  split at step
  · cases step
  · dsimp only at step
    unfold served at step
    split at step
    · cases step
    · split at step
      · cases step
        rfl
      · split at step
        · cases step
          rfl
        · cases step

def Follows (perform : κ → Handler κ σ) (next here : Standing κ σ) : Prop :=
  here.turn perform = .on next

theorem follows_wf (perform : κ → Handler κ σ) : WellFounded (Follows perform) :=
  Subrelation.wf less_turn
    (InvImage.wf (fun here : Standing κ σ => levels here.frames [1]) (Levels.less_wf (maxDepth + 2)))

theorem comes_to_end (perform : κ → Handler κ σ) (here : Standing κ σ) :
    ∃ k last ending, turns perform k here = .on last ∧ last.turn perform = .ended ending ∧
      here.finish perform = ending ∧ last.visited = here.visited + k := by
  induction here using (follows_wf perform).induction with
  | _ here ih =>
    cases step : here.turn perform with
    | ended ending => exact ⟨0, here, ending, rfl, step, finish_ended step, rfl⟩
    | on next =>
      obtain ⟨k, last, ending, reached, ended, finished, counted⟩ := ih next step
      refine ⟨k + 1, last, ending, ?_, ended, (finish_on step).trans finished, ?_⟩
      · rw [turns, step]
        exact reached
      · rw [counted, visited_of_turn step]
        omega

end Standing

-- Whatever the handlers do to their nodes, be it that each of them puts a larger tree in the place of
-- every node, a run comes to its end after finitely many turns: it has visited one node for each turn,
-- or it fails, at a node that is too deep or with the fault of a handler. There is no endless sequence of
-- turns from anywhere.
theorem run_ends (perform : κ → Handler κ σ) (d : Dispatcher κ) (ctx : Context κ σ) :
    (∃ k last ending, Standing.turns perform k (.start d ctx) = .on last ∧
      last.turn perform = .ended ending ∧ last.visited = k ∧ last.Ends perform ending.outcome ∧
      d.run perform ctx =
        if d.registry.count = 0 then (.ok 0, d, ctx)
        else (ending.outcome, ending.dispatcher, { ending.setting with root := ending.root })) ∧
      ∀ walk : Nat → Standing κ σ, ∃ i, ¬Standing.Follows perform (walk (i + 1)) (walk i) := by
  constructor
  · obtain ⟨k, last, ending, reached, ended, finished, counted⟩ :=
      Standing.comes_to_end perform (.start d ctx)
    refine ⟨k, last, ending, reached, ended, ?_, Standing.ends_of_turn ended, ?_⟩
    · rw [counted]
      exact Nat.zero_add k
    · rw [Dispatcher.run, finished]
  · intro walk
    have follows : IsWellFounded _ (Standing.Follows perform) := ⟨Standing.follows_wf perform⟩
    exact WellFounded.not_rel_apply_succ (r := Standing.Follows perform) walk

def framing : Unit → Handler Unit σ := fun _ =>
  ExceptT.mk fun (n, s) => (.ok (some (.element ⟨.text "frame", .record [], .null, .absent, .null⟩ [n])), n, s)

def everyElement : List (Registration Unit) := [⟨elementKey, "<anonymous>", ()⟩]

theorem serving_framing {n : Node} (element : n.isElement) (s : Setting Unit σ) :
    ∃ head t calls, serving framing everyElement n s = ⟨.ok (), .element head [n], t, calls⟩ ∧
      t.source = s.source := by
  have only : everyElement.filter (fun g => g.serves n) = everyElement := by
    simp [everyElement, Registration.serves, element]
  rw [serving, only]
  exact ⟨_, _, _, rfl, rfl⟩

theorem visit_framing {depth levels : Nat} (deep : depth + levels = maxDepth + 1) {n : Node}
    (element : n.isElement) (s : Setting Unit σ) :
    (visit (serving framing everyElement) depth n s).outcome =
      .error (.tooDeep depthLimit "capability" s.source none) := by
  induction levels generalizing depth s with
  | zero => rw [visit_tooDeep (by omega)]
  | succ levels ih =>
    obtain ⟨head, t, calls, framed, source⟩ := serving_framing element s
    have inside := ih (show depth + 1 + levels = maxDepth + 1 by omega) t
    rw [visit, if_neg (by omega), framed]
    dsimp only [Node.children]
    rw [visitEach]
    generalize visit (serving framing everyElement) (depth + 1) n t = report at inside ⊢
    obtain ⟨outcome, left, last, more⟩ := report
    cases inside
    rw [source]
    rfl

theorem framing_refused {r : Registry Unit} (holds : r.Holds everyElement) {ctx : Context Unit σ}
    (element : ctx.root.isElement) :
    ((run framing r).exec ctx).1 = .error (.tooDeep depthLimit "capability" ctx.source none) := by
  rw [exec_run_visit framing holds (by simp [everyElement]) ctx]
  exact visit_framing (Nat.zero_add (maxDepth + 1)) element ctx.toSetting

end SemanticMarkup.Dispatch
