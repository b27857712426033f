import SemanticMarkup.Dispatch.Batch

namespace SemanticMarkup

namespace Dispatch
variable {κ σ : Type}

theorem Registry.answer_same (r : Registry κ) {q other : Question} (same : q.same other = true) :
    r.answer q = r.answer other := by
  obtain ⟨key, forElement⟩ := q
  obtain ⟨otherKey, otherForElement⟩ := other
  simp only [Question.same, Bool.and_eq_true, beq_iff_eq] at same
  obtain ⟨keys, rfl⟩ := same
  unfold answer
  cases key with
  | text s =>
    cases otherKey with
    | text t =>
      obtain rfl : s = t := by simpa [Value.same] using keys
      rfl
    | _ => simp [Value.same, Value.sameNumber, Value.whole?] at keys
  | _ =>
    cases otherKey with
    | text t => simp [Value.same, Value.sameNumber, Value.whole?] at keys
    | _ => rfl

theorem Registry.forNode_eq_answer (r : Registry κ) (n : Node) : r.forNode n = r.answer n.question := by
  unfold forNode Node.question
  split
  · rfl
  · rfl

namespace Dispatcher
variable {d : Dispatcher κ} {q : Question} {entries : List (Entry κ)}

-- What is remembered is what the registry would answer now.
def Current (d : Dispatcher κ) : Prop := ∀ known ∈ d.answers, known.2 = d.registry.answer known.1

theorem current_ofRegistry (r : Registry κ) : (ofRegistry r).Current := nofun

theorem answer_of_known (current : d.Current) (known : d.known? q = some entries) :
    entries = d.registry.answer q := by
  obtain ⟨old, found, rfl⟩ := Option.map_eq_some_iff.mp known
  have same := List.find?_some found
  rw [current old (List.mem_of_find?_eq_some found)]
  exact d.registry.answer_same same

theorem registry_ask (d : Dispatcher κ) (q : Question) : (d.ask q).2.registry = d.registry := by
  unfold ask
  split <;> rfl

theorem ask_answer (current : d.Current) (q : Question) : (d.ask q).1 = d.registry.answer q := by
  unfold ask
  split
  · rename_i entries known
    exact answer_of_known current known
  · rfl

theorem current_ask (current : d.Current) (q : Question) : (d.ask q).2.Current := by
  unfold ask
  split
  · exact current
  · intro known member
    rcases List.mem_cons.mp member with rfl | old
    · rfl
    · exact current known old

theorem ask_node (current : d.Current) (n : Node) : (d.ask n.question).1 = d.registry.forNode n := by
  rw [ask_answer current, d.registry.forNode_eq_answer]

end Dispatcher

-- The walk of a registry that remembers nothing and looks up every node anew.
def walk (perform : κ → Handler κ σ) (r : Registry κ) (n : Node) (frames : List Frame)
    (s : Setting κ σ) (visited : Nat) : Except Fault Nat × Node × Setting κ σ :=
  if _deep : maxDepth < frames.length then
    (.error (.tooDeep depthLimit "capability" s.source none), plugAll frames n, s)
  else
    match serve perform (r.forNode n) (n, s) with
    | (.error f, n, s) => (.error f, plugAll frames n, s)
    | (.ok (), n, s) =>
      match n.children with
      | child :: rest => walk perform r child (⟨n, [], rest⟩ :: frames) s (visited + 1)
      | [] =>
        match _step : advance n frames with
        | .visit next onward => walk perform r next onward s (visited + 1)
        | .finished root => (.ok (visited + 1), root, s)
termination_by (⟨levels frames [1]⟩ : Levels)
decreasing_by
  · have smaller : Levels.less 1 [0, rest.length + 1] [1] := .inl Nat.zero_lt_one
    have := less_levels frames smaller
    exact Levels.less_mono (by omega) this
  · have waits : Levels.waitsAt 0 [1] := Nat.zero_lt_one
    have := less_advance _step waits
    exact Levels.less_mono (by omega) this

section
variable {perform : κ → Handler κ σ} {r : Registry κ} {n left : Node} {frames : List Frame}
  {s after : Setting κ σ} (visited : Nat) (shallow : ¬maxDepth < frames.length)
include shallow

theorem walk_of_error {f : Fault}
    (served : serve perform (r.forNode n) (n, s) = (.error f, left, after)) :
    walk perform r n frames s visited = (.error f, plugAll frames left, after) := by
  rw [walk, dif_neg shallow, served]

theorem walk_down {child : Node} {rest : List Node}
    (served : serve perform (r.forNode n) (n, s) = (.ok (), left, after))
    (below : left.children = child :: rest) :
    walk perform r n frames s visited =
      walk perform r child (⟨left, [], rest⟩ :: frames) after (visited + 1) := by
  rw [walk, dif_neg shallow, served]
  simp only [below]

theorem walk_onward {next : Node} {onward : List Frame}
    (served : serve perform (r.forNode n) (n, s) = (.ok (), left, after))
    (childless : left.children = []) (step : advance left frames = .visit next onward) :
    walk perform r n frames s visited = walk perform r next onward after (visited + 1) := by
  rw [walk, dif_neg shallow, served]
  simp only [childless]
  split <;> rename_i here <;> cases step.symm.trans here
  rfl

theorem walk_finished {root : Node}
    (served : serve perform (r.forNode n) (n, s) = (.ok (), left, after))
    (childless : left.children = []) (step : advance left frames = .finished root) :
    walk perform r n frames s visited = (.ok (visited + 1), root, after) := by
  rw [walk, dif_neg shallow, served]
  simp only [childless]
  split <;> rename_i here <;> cases step.symm.trans here
  rfl

end

-- A walk ends as one that looks up everything does, and what it remembers is still good.
structure Ending.Matches (ending : Ending κ σ) (r : Registry κ)
    (walked : Except Fault Nat × Node × Setting κ σ) : Prop where
  outcome : ending.outcome = walked.1
  root : ending.root = walked.2.1
  setting : ending.setting = walked.2.2
  registry : ending.dispatcher.registry = r
  current : ending.dispatcher.Current

namespace Standing
variable {perform : κ → Handler κ σ}

theorem finish_on {here next : Standing κ σ} (step : here.turn perform = .on next) :
    here.finish perform = next.finish perform := by
  rw [finish]
  split <;> rename_i same <;> cases step.symm.trans same
  rfl

theorem finish_ended {here : Standing κ σ} {ending : Ending κ σ}
    (step : here.turn perform = .ended ending) : here.finish perform = ending := by
  rw [finish]
  split <;> rename_i same <;> cases step.symm.trans same
  rfl

theorem turn_current (here : Standing κ σ) {r : Registry κ}
    {result : Except Fault Unit × Node × Setting κ σ} (shallow : ¬maxDepth < here.frames.length)
    (holds : here.dispatcher.registry = r) (current : here.dispatcher.Current)
    (ran : serve perform (r.forNode here.node) (here.node, here.setting) = result) :
    here.turn perform = here.served (here.dispatcher.ask here.node.question).2 result := by
  rw [turn, if_neg shallow, ← ran, ← holds, ← Dispatcher.ask_node current]

theorem finish_matches (perform : κ → Handler κ σ) (n : Node) (frames : List Frame) (s : Setting κ σ) (visited : Nat)
    {r : Registry κ} {d : Dispatcher κ} (holds : d.registry = r) (current : d.Current) :
    ((⟨n, frames, s, d, visited⟩ : Standing κ σ).finish perform).Matches r
      (walk perform r n frames s visited) := by
  have keeps : ∀ (d : Dispatcher κ) (n : Node), d.registry = r →
      (d.ask n.question).2.registry = r := fun d n same => (d.registry_ask _).trans same
  induction n, frames, s, visited using walk.induct perform r generalizing d with
  | case1 n frames s visited deep =>
    have step : turn perform ⟨n, frames, s, d, visited⟩ = .ended _ := if_pos deep
    rw [finish_ended step, walk, dif_pos deep]
    exact ⟨rfl, rfl, rfl, holds, current⟩
  | case2 n frames s visited shallow f left after ran =>
    have step := turn_current ⟨n, frames, s, d, visited⟩ shallow holds current ran
    simp only [served] at step
    rw [finish_ended step, walk_of_error visited shallow ran]
    exact ⟨rfl, rfl, rfl, keeps d n holds, Dispatcher.current_ask current _⟩
  | case3 n frames s visited shallow left after ran child rest below ih =>
    have step := turn_current ⟨n, frames, s, d, visited⟩ shallow holds current ran
    simp only [served, below] at step
    rw [finish_on step, walk_down visited shallow ran below]
    exact ih (keeps d n holds) (Dispatcher.current_ask current _)
  | case4 n frames s visited shallow left after ran childless next onward behind ih =>
    have step := turn_current ⟨n, frames, s, d, visited⟩ shallow holds current ran
    simp only [served, childless, behind] at step
    rw [finish_on step, walk_onward visited shallow ran childless behind]
    exact ih (keeps d n holds) (Dispatcher.current_ask current _)
  | case5 n frames s visited shallow left after ran childless root behind =>
    have step := turn_current ⟨n, frames, s, d, visited⟩ shallow holds current ran
    simp only [served, childless, behind] at step
    rw [finish_ended step, walk_finished visited shallow ran childless behind]
    exact ⟨rfl, rfl, rfl, keeps d n holds, Dispatcher.current_ask current _⟩

end Standing

theorem Dispatcher.run_walk (perform : κ → Handler κ σ) {r : Registry κ} {d : Dispatcher κ}
    (holds : d.registry = r) (current : d.Current) (some : r.count ≠ 0) (ctx : Context κ σ) :
    ∃ after, after.registry = r ∧ after.Current ∧
      d.run perform ctx =
        ((walk perform r ctx.root [] ctx.toSetting 0).1, after,
          { (walk perform r ctx.root [] ctx.toSetting 0).2.2 with
            root := (walk perform r ctx.root [] ctx.toSetting 0).2.1 }) := by
  have ended := Standing.finish_matches perform ctx.root [] ctx.toSetting 0 holds current
  refine ⟨_, ended.registry, ended.current, ?_⟩
  rw [run, if_neg (by rwa [holds]), ← ended.outcome, ← ended.root, ← ended.setting]
  rfl

end Dispatch
end SemanticMarkup
