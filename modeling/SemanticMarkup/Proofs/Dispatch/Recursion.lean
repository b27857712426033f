import SemanticMarkup.Proofs.Dispatch.Answers
import SemanticMarkup.Proofs.Dispatch.Registrations
import SemanticMarkup.Proofs.Results

namespace SemanticMarkup.Dispatch
variable {κ σ ν α : Type}

structure Call (κ : Type) where
  handler : κ
  node : Node

-- How a piece of a walk ended: its outcome, what it left of a node or of several, the setting, and
-- the calls that were made, the failing one included.
structure Report (κ σ ν α : Type) where
  outcome : Except Fault α
  left : ν
  setting : Setting κ σ
  calls : List (Call κ)

def Report.after (calls : List (Call κ)) (report : Report κ σ ν α) : Report κ σ ν α :=
  { report with calls := calls ++ report.calls }

def handled (perform : κ → Handler κ σ) :
    List (Registration κ) → Node → Setting κ σ → Report κ σ Node Unit
  | [], n, s => ⟨.ok (), n, s, []⟩
  | g :: rest, n, s =>
    match (perform g.handler).run.run (n, s) with
    | (.ok answer, left, s) =>
      (handled perform rest (answer.getD left) (s.time g.owner)).after [⟨g.handler, n⟩]
    | (.error f, left, s) =>
      ⟨.error (Plugin.blame g.owner "capability" s.source f), left, s, [⟨g.handler, n⟩]⟩

def visitEach (visit : Node → Setting κ σ → Report κ σ Node Nat) :
    List Node → Setting κ σ → Report κ σ (List Node) Nat
  | [], s => ⟨.ok 0, [], s, []⟩
  | n :: rest, s =>
    match visit n s with
    | ⟨.ok count, n, s, calls⟩ =>
      match visitEach visit rest s with
      | ⟨outcome, rest, s, more⟩ => ⟨outcome.map (count + ·), n :: rest, s, calls ++ more⟩
    | ⟨.error f, n, s, calls⟩ => ⟨.error f, n :: rest, s, calls⟩

-- A walk told by recursion: a node is served, then the children of what is left of it are visited
-- and put back in their slots. What is too deep fails before it is served.
def visit (serving : Node → Setting κ σ → Report κ σ Node Unit) (depth : Nat) (n : Node)
    (s : Setting κ σ) : Report κ σ Node Nat :=
  if maxDepth < depth then
    ⟨.error (.tooDeep depthLimit "capability" s.source none), n, s, []⟩
  else
    match serving n s with
    | ⟨.error f, n, s, calls⟩ => ⟨.error f, n, s, calls⟩
    | ⟨.ok (), n, s, calls⟩ =>
      match visitEach (visit serving (depth + 1)) n.children s with
      | ⟨outcome, kids, s, more⟩ => ⟨outcome.map (· + 1), n.withChildren kids, s, calls ++ more⟩
termination_by maxDepth + 1 - depth

variable {perform : κ → Handler κ σ} {r : Registry κ}
  {serving : Node → Setting κ σ → Report κ σ Node Unit}

theorem visit_tooDeep {depth : Nat} (deep : maxDepth < depth) (n : Node) (s : Setting κ σ) :
    visit serving depth n s =
      ⟨.error (.tooDeep depthLimit "capability" s.source none), n, s, []⟩ := by
  rw [visit, if_pos deep]

-- The handlers of a registry do to every node what this serving does to it.
def Agrees (perform : κ → Handler κ σ) (r : Registry κ)
    (serving : Node → Setting κ σ → Report κ σ Node Unit) : Prop :=
  ∀ n s, serve perform (r.forNode n) (n, s) =
    ((serving n s).outcome, (serving n s).left, (serving n s).setting)

theorem serve_entries (perform : κ → Handler κ σ) {entries : List (Entry κ)}
    {done : List (Registration κ)}
    (same : entries.map (fun e => (e.owner, e.handler)) = done.map fun g => (g.owner, g.handler))
    (n : Node) (s : Setting κ σ) :
    serve perform entries (n, s) = ((handled perform done n s).outcome,
      (handled perform done n s).left, (handled perform done n s).setting) := by
  induction done generalizing entries n s with
  | nil =>
    rw [List.map_nil, List.map_eq_nil_iff] at same
    subst same
    rfl
  | cons g rest ih =>
    cases entries with
    | nil => cases same
    | cons e others =>
      rw [List.map_cons, List.map_cons, List.cons.injEq, Prod.mk.injEq] at same
      obtain ⟨⟨owner, handler⟩, tail⟩ := same
      rw [serve, handled, owner, handler]
      -- The handler fails, leaves the node in its place, or answers with another one.
      match (perform g.handler).run.run (n, s) with
      | (.error f, left, s) => rfl
      | (.ok none, left, s) => exact ih tail left _
      | (.ok (some other), left, s) => exact ih tail other _

theorem agrees_handled {done : List (Registration κ)} (perform : κ → Handler κ σ)
    (holds : r.Holds done) :
    Agrees perform r fun n => handled perform (done.filter fun g => g.serves n) n := by
  intro n s
  rw [Registry.forNode_eq holds]
  exact serve_entries perform (Registration.pairs_entries _ done) n s

-- Where a walk stands when a subtree is done with: it goes on behind the subtree, or it ends in the
-- middle of the tree.
def resume (perform : κ → Handler κ σ) (r : Registry κ) (report : Report κ σ Node Nat)
    (frames : List Frame) (visited : Nat) : Except Fault Nat × Node × Setting κ σ :=
  match report.outcome with
  | .error f => (.error f, plugAll frames report.left, report.setting)
  | .ok count =>
    match advance report.left frames with
    | .visit next onward => walk perform r next onward report.setting (visited + count)
    | .finished root => (.ok (visited + count), root, report.setting)

def Report.around (parent : Node) (finished : List Node) (report : Report κ σ (List Node) Nat) :
    Report κ σ Node Nat :=
  ⟨report.outcome, parent.withChildren (finished.reverse ++ report.left), report.setting, report.calls⟩

theorem walk_siblings {depth : Nat}
    (one : ∀ n frames s visited, frames.length = depth + 1 →
      walk perform r n frames s visited =
        resume perform r (visit serving (depth + 1) n s) frames visited)
    (waiting : List Node) (first parent : Node) (finished : List Node) (frames : List Frame)
    (s : Setting κ σ) (visited : Nat) (deep : frames.length = depth) :
    walk perform r first (⟨parent, finished, waiting⟩ :: frames) s visited =
      resume perform r
        ((visitEach (visit serving (depth + 1)) (first :: waiting) s).around parent finished)
        frames visited := by
  induction waiting generalizing first finished s visited with
  | nil =>
    rw [one first _ s visited (by simp [deep]), visitEach]
    match visit serving (depth + 1) first s with
    | ⟨.error f, n, t, calls⟩ => rfl
    | ⟨.ok count, n, t, calls⟩ => rfl
  | cons next rest ih =>
    rw [one first _ s visited (by simp [deep]), visitEach]
    match visit serving (depth + 1) first s with
    | ⟨.error f, n, t, calls⟩ => rfl
    | ⟨.ok count, n, t, calls⟩ =>
      refine (ih next (n :: finished) t (visited + count)).trans ?_
      unfold resume Report.around
      simp only [List.reverse_cons, List.append_assoc, List.singleton_append]
      cases (visitEach (visit serving (depth + 1)) (next :: rest) t).outcome with
      | error f => rfl
      | ok more =>
        simp only [Except.map]
        rw [Nat.add_assoc]

-- From any place in a tree, with what is behind it still waiting, the walk does to the subtree what
-- the recursion does, and goes on from there.
theorem walk_visit (agrees : Agrees perform r serving) {levels : Nat} (n : Node)
    (frames : List Frame) (s : Setting κ σ) (visited : Nat)
    (deep : frames.length + levels = maxDepth + 1) :
    walk perform r n frames s visited =
      resume perform r (visit serving frames.length n s) frames visited := by
  -- The frames above and the levels left stay together one more than the ceiling.
  induction levels generalizing n frames s visited with
  | zero =>
    rw [walk, dif_pos (by omega), visit_tooDeep (by omega)]
    rfl
  | succ levels ih =>
    have served := agrees n s
    rw [walk, dif_neg (by omega), served, visit, if_neg (by omega)]
    generalize serving n s = report
    obtain ⟨outcome, left, t, calls⟩ := report
    cases outcome with
    | error f => rfl
    | ok _ =>
      dsimp only
      cases below : left.children with
      | nil =>
        have alone : left.withChildren [] = left := by
          rw [← below, Node.withChildren_children]
        simp only [visitEach, alone, resume, Except.map, Nat.zero_add]
        split <;> rename_i step <;> rw [step]
      | cons child rest =>
        have each : ∀ m onward u count, onward.length = frames.length + 1 →
            walk perform r m onward u count =
              resume perform r (visit serving (frames.length + 1) m u) onward count := by
          intro m onward u count long
          rw [← long]
          exact ih m onward u count (by omega)
        refine (walk_siblings each rest child left [] frames t (visited + 1) rfl).trans ?_
        unfold resume Report.around
        dsimp only [List.reverse_nil, List.nil_append]
        cases (visitEach (visit serving (frames.length + 1)) (child :: rest) t).outcome with
        | error f => rfl
        | ok more =>
          simp only [Except.map]
          rw [Nat.add_assoc, Nat.add_comm 1 more]

theorem walk_top (agrees : Agrees perform r serving) (root : Node) (s : Setting κ σ) :
    walk perform r root [] s 0 =
      ((visit serving 0 root s).outcome, (visit serving 0 root s).left,
        (visit serving 0 root s).setting) := by
  rw [walk_visit agrees root [] s 0 (Nat.zero_add (maxDepth + 1))]
  unfold resume
  rw [List.length_nil]
  cases ended : (visit serving 0 root s).outcome with
  | error f => rfl
  | ok count => simp only [advance, Nat.zero_add]

end SemanticMarkup.Dispatch
