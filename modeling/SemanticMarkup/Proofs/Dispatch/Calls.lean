import SemanticMarkup.Proofs.Dispatch.Recursion
import SemanticMarkup.Proofs.Pipeline.Actions

namespace SemanticMarkup

def Setting.sharing {κ σ τ : Type} (s : Setting κ σ) (shared : τ) : Setting κ τ :=
  { s with shared := shared }

theorem Node.size_withChildren {n : Node} {kids : List Node}
    (long : kids.length = n.children.length) : (n.withChildren kids).size = sizeAll kids + 1 := by
  cases n with
  | element head children => rfl
  | _ =>
    have none : kids = [] := List.eq_nil_of_length_eq_zero long
    subst none
    rfl

namespace Dispatch
variable {κ σ ν α : Type}

def serving (perform : κ → Handler κ σ) (done : List (Registration κ)) (n : Node)
    (s : Setting κ σ) : Report κ σ Node Unit :=
  handled perform (done.filter fun g => g.serves n) n s

-- Handlers that write down each call, beside what they share, and do the same as ever.
def recorded (perform : κ → Handler κ σ) (handler : κ) : Handler κ (σ × List (Call κ)) :=
  ExceptT.mk fun (n, s) =>
    match (perform handler).run.run (n, s.sharing s.shared.1) with
    | (answer, left, after) =>
      (answer, left, after.sharing (after.shared, s.shared.2 ++ [⟨handler, n⟩]))

def Report.recorded (earlier : List (Call κ)) (report : Report κ σ ν α) :
    Report κ (σ × List (Call κ)) ν α :=
  ⟨report.outcome, report.left,
    report.setting.sharing (report.setting.shared, earlier ++ report.calls), report.calls⟩

theorem run_recorded (perform : κ → Handler κ σ) {handler : κ} {n left : Node} {s after : Setting κ σ}
    {answer : Except Fault (Option Node)} (earlier : List (Call κ))
    (ran : (perform handler).run.run (n, s) = (answer, left, after)) :
    (recorded perform handler).run.run (n, s.sharing (s.shared, earlier)) =
      (answer, left, after.sharing (after.shared, earlier ++ [⟨handler, n⟩])) := by
  have told : (recorded perform handler).run.run (n, s.sharing (s.shared, earlier)) =
      let out := (perform handler).run.run (n, s)
      (out.1, out.2.1, out.2.2.sharing (out.2.2.shared, earlier ++ [⟨handler, n⟩])) := rfl
  rw [told, ran]

theorem handled_recorded (perform : κ → Handler κ σ) (done : List (Registration κ)) (n : Node)
    (s : Setting κ σ) (earlier : List (Call κ)) :
    handled (recorded perform) done n (s.sharing (s.shared, earlier)) =
      (handled perform done n s).recorded earlier := by
  induction done generalizing n s earlier with
  | nil => simp [handled, Report.recorded]
  | cons g rest ih =>
    rw [handled, handled]
    rcases ran : (perform g.handler).run.run (n, s) with ⟨answer, left, after⟩
    rw [run_recorded perform earlier ran]
    cases answer with
    | error f => rfl
    | ok answer =>
      dsimp only
      have others := ih (answer.getD left) (after.time g.owner) (earlier ++ [⟨g.handler, n⟩])
      have timed : (after.sharing (after.shared, earlier ++ [⟨g.handler, n⟩])).time g.owner =
          (after.time g.owner).sharing ((after.time g.owner).shared, earlier ++ [⟨g.handler, n⟩]) := rfl
      rw [timed, others]
      simp [Report.after, Report.recorded]

theorem visitEach_recorded {visit : Node → Setting κ σ → Report κ σ Node Nat}
    {recording : Node → Setting κ (σ × List (Call κ)) → Report κ (σ × List (Call κ)) Node Nat}
    (each : ∀ n s earlier, recording n (s.sharing (s.shared, earlier)) = (visit n s).recorded earlier)
    (nodes : List Node) (s : Setting κ σ) (earlier : List (Call κ)) :
    visitEach recording nodes (s.sharing (s.shared, earlier)) =
      (visitEach visit nodes s).recorded earlier := by
  induction nodes generalizing s earlier with
  | nil => simp [visitEach, Report.recorded]
  | cons n rest ih =>
    rw [visitEach, visitEach, each]
    obtain ⟨outcome, left, after, calls⟩ := visit n s
    cases outcome with
    | error f => rfl
    | ok count =>
      simp only [Report.recorded, ih after (earlier ++ calls), List.append_assoc]

theorem visit_recorded (perform : κ → Handler κ σ) (done : List (Registration κ)) {depth levels : Nat}
    (deep : depth + levels = maxDepth + 1) (n : Node) (s : Setting κ σ) (earlier : List (Call κ)) :
    visit (serving (recorded perform) done) depth n (s.sharing (s.shared, earlier)) =
      (visit (serving perform done) depth n s).recorded earlier := by
  induction levels generalizing depth n s earlier with
  | zero =>
    rw [visit_tooDeep (by omega), visit_tooDeep (by omega)]
    simp [Report.recorded, Setting.sharing]
  | succ levels ih =>
    rw [visit, if_neg (by omega), visit, if_neg (by omega), serving, serving, handled_recorded]
    obtain ⟨outcome, left, after, calls⟩ := handled perform (done.filter fun g => g.serves n) n s
    cases outcome with
    | error f => rfl
    | ok _ =>
      have lower : depth + 1 + levels = maxDepth + 1 := by omega
      have inside := visitEach_recorded (fun m u before => ih lower m u before) left.children after
        (earlier ++ calls)
      simp only [Report.recorded, inside, List.append_assoc]

theorem visitEach_size {visit : Node → Setting κ σ → Report κ σ Node Nat}
    (each : ∀ n s count, (visit n s).outcome = .ok count → count = (visit n s).left.size)
    (nodes : List Node) (s : Setting κ σ) :
    (visitEach visit nodes s).left.length = nodes.length ∧
      ∀ count, (visitEach visit nodes s).outcome = .ok count →
        count = Node.sizeAll (visitEach visit nodes s).left := by
  induction nodes generalizing s with
  | nil => exact ⟨rfl, fun count fine => by cases fine; rfl⟩
  | cons n rest ih =>
    have whole := each n s
    rw [visitEach]
    generalize visit n s = report at whole ⊢
    obtain ⟨outcome, left, after, calls⟩ := report
    cases outcome with
    | error f => exact ⟨by simp, fun count fine => by cases fine⟩
    | ok first =>
      obtain ⟨long, counted⟩ := ih after
      refine ⟨by simp [long], fun count fine => ?_⟩
      obtain ⟨more, others, rfl⟩ := ok_of_map fine
      rw [Node.sizeAll, ← counted more others, ← whole first rfl]

theorem visit_size {perform : κ → Handler κ σ} {done : List (Registration κ)} {depth levels : Nat}
    (deep : depth + levels = maxDepth + 1) (n : Node) (s : Setting κ σ) (count : Nat)
    (fine : (visit (serving perform done) depth n s).outcome = .ok count) :
    count = (visit (serving perform done) depth n s).left.size := by
  induction levels generalizing depth n s count with
  | zero =>
    rw [visit_tooDeep (by omega)] at fine
    cases fine
  | succ levels ih =>
    rw [visit, if_neg (by omega)] at fine ⊢
    generalize serving perform done n s = report at fine ⊢
    obtain ⟨outcome, left, after, calls⟩ := report
    cases outcome with
    | error f => cases fine
    | ok _ =>
      have lower : depth + 1 + levels = maxDepth + 1 := by omega
      obtain ⟨long, counted⟩ := visitEach_size (fun m u more => ih lower m u more) left.children after
      obtain ⟨more, others, rfl⟩ := ok_of_map fine
      rw [counted more others]
      exact (Node.size_withChildren long).symm

theorem exec_run (perform : κ → Handler κ σ) (r : Registry κ) (some : r.count ≠ 0)
    (ctx : Context κ σ) :
    (run perform r).exec ctx =
      ((walk perform r ctx.root [] ctx.toSetting 0).1,
        { (walk perform r ctx.root [] ctx.toSetting 0).2.2 with
          root := (walk perform r ctx.root [] ctx.toSetting 0).2.1 }) := by
  have fresh := Dispatcher.current_ofRegistry r
  obtain ⟨remembering, _, _, ran⟩ := Dispatcher.run_walk perform rfl fresh some ctx
  unfold run
  rw [Action.exec_get_bind, ran]
  dsimp only [Dispatcher.ofRegistry]
  cases walk perform r ctx.root [] ctx.toSetting 0 with
  | mk result after => cases result <;> rfl

theorem exec_run_idle (perform : κ → Handler κ σ) {r : Registry κ} (none : r.count = 0)
    (ctx : Context κ σ) : (run perform r).exec ctx = (.ok 0, ctx) := by
  unfold run
  rw [Action.exec_get_bind, Dispatcher.run, if_pos (show (Dispatcher.ofRegistry r).registry.count = 0 from none)]
  rfl

theorem exec_flush (perform : κ → Handler κ σ) (r : Registry κ)
    (some : r.count ≠ 0) (ctx : Context κ σ) :
    (flush perform r).exec ctx =
      match walk perform r ctx.root [] ctx.toSetting 0 with
      | (.ok _, root, s) => (.ok (), { s.countWalk with root := root })
      | (.error f, root, s) => (.error f, { s with root := root }) := by
  unfold flush
  rw [if_neg some, Action.exec_bind, exec_run perform r some]
  cases walk perform r ctx.root [] ctx.toSetting 0 with
  | mk result after => cases result <;> rfl

theorem exec_run_visit (perform : κ → Handler κ σ) {r : Registry κ} {done : List (Registration κ)}
    (holds : r.Holds done) (some : done ≠ []) (ctx : Context κ σ) :
    (run perform r).exec ctx =
      ((visit (serving perform done) 0 ctx.root ctx.toSetting).outcome,
        { (visit (serving perform done) 0 ctx.root ctx.toSetting).setting with
          root := (visit (serving perform done) 0 ctx.root ctx.toSetting).left }) := by
  have count : r.count ≠ 0 := by
    rw [holds.count]
    exact fun none => some (List.eq_nil_of_length_eq_zero none)
  have agrees : Agrees perform r (serving perform done) := agrees_handled perform holds
  rw [exec_run perform r count, walk_top agrees]

-- A run of the dispatcher is the recursive visit of the root: the same outcome, the same tree with
-- whatever took the place of the root on top, the same setting, and the same calls in the same
-- order, as handlers that write them down show. A run that ends well has counted the final tree.
theorem run_visits (perform : κ → Handler κ σ) {r : Registry κ} {done : List (Registration κ)}
    (holds : r.Holds done) (some : done ≠ []) (ctx : Context κ σ) :
    ∃ report, visit (serving perform done) 0 ctx.root ctx.toSetting = report ∧
      (run perform r).exec ctx = (report.outcome, { report.setting with root := report.left }) ∧
      (run (recorded perform) r).exec { ctx.toSetting.sharing (ctx.shared, []) with root := ctx.root } =
        (report.outcome,
          { report.setting.sharing (report.setting.shared, report.calls) with root := report.left }) ∧
      ∀ count, report.outcome = .ok count → count = report.left.size := by
  refine ⟨_, rfl, exec_run_visit perform holds some ctx, ?_, ?_⟩
  · rw [exec_run_visit (recorded perform) holds some]
    have whole := visit_recorded perform done (Nat.zero_add (maxDepth + 1)) ctx.root ctx.toSetting []
    dsimp only
    rw [whole]
    rfl
  · exact visit_size (Nat.zero_add _) ctx.root ctx.toSetting

def box : Node :=
  .element ⟨.text "box", .record [], .null, .absent, .null⟩ [.text ⟨.text "x", .null, .null, .null, .null⟩]

def boxing : Bool → Handler Bool Nat
  | true => ExceptT.mk fun (n, s) => (.ok (some box), n, s)
  | false => ExceptT.mk fun (n, s) => (.ok none, n, s.sharing (s.shared + 1))

def boxes : Registry Bool := (Registry.empty.insert "root" true).insert elementKey false

def boxesDone : List (Registration Bool) :=
  [⟨"root", "<anonymous>", true⟩, ⟨elementKey, "<anonymous>", false⟩]

def unboxed : Context Bool Nat where
  ast := .node .root []
  metadata := []
  source := .null
  metrics := none
  collecting := none
  shared := 0
  root := .root

theorem unboxed_visits :
    boxes.Holds boxesDone ∧ boxesDone ≠ [] ∧
      ∃ after, (run boxing boxes).exec unboxed = (.ok 2, after) ∧ after.root = box ∧
        box.size = 2 ∧ after.shared = 1 ∧
        ∃ told, (run (recorded boxing) boxes).exec
            { unboxed.toSetting.sharing (unboxed.shared, []) with root := unboxed.root } =
              (.ok 2, told) ∧ told.shared = (1, [⟨true, .root⟩, ⟨false, box⟩]) := by
  have holds : boxes.Holds boxesDone :=
    Registry.holds_insert (Registry.holds_insert Registry.holds_empty "root" true) elementKey false
  have some : boxesDone ≠ [] := by simp [boxesDone]
  obtain ⟨report, visits, ran, told, counted⟩ := run_visits boxing holds some unboxed
  have root : serving boxing boxesDone unboxed.root unboxed.toSetting =
      ⟨.ok (), box, unboxed.toSetting.sharing 1, [⟨true, .root⟩, ⟨false, box⟩]⟩ := rfl
  have inside : ∀ leaf, visit (serving boxing boxesDone) 1 (.text leaf) (unboxed.toSetting.sharing 1) =
      ⟨.ok 1, .text leaf, unboxed.toSetting.sharing 1, []⟩ := by
    intro leaf
    rw [visit, if_neg (by decide)]
    rfl
  rw [visit, if_neg (by decide), root] at visits
  simp only [box, Node.children, visitEach, inside] at visits
  subst visits
  exact ⟨holds, some, _, ran, rfl, rfl, rfl, _, told, rfl⟩

end Dispatch
end SemanticMarkup
