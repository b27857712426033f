import SemanticMarkup.Proofs.Validity.Selection
import SemanticMarkup.Proofs.Pipeline.Ceiling

namespace SemanticMarkup
open Walk Passes Dispatch

-- A fault can be reported when it names the phase that was running and carries the source.
def Fault.Reports (f : Fault) (phase : Phase) (source : Value) : Prop :=
  f.phase? = some phase.name ∧ f.source = source

theorem depthFault_unreported (phase : Phase) (source : Value) : ¬depthFault.Reports phase source := by
  rintro ⟨named, _⟩
  cases phase <;> exact absurd named (by decide)

theorem Fault.Reports.ne_depthFault {f : Fault} {phase : Phase} {source : Value}
    (reports : f.Reports phase source) : f ≠ depthFault := by
  rintro rfl
  exact depthFault_unreported phase source reports

namespace Transformer
variable {ε σ : Type} {t : Transformer ε σ} {source : String} {shared : σ} {a : Ast}
  {ctx after : Context (HandlerName ε) σ} {f : Fault}

theorem runEach_error {plugins : List (Plugin (HandlerName ε) σ)}
    (failed : (runEach plugins).exec ctx = (.error f, after)) :
    ∃ front p back middle, plugins = front ++ p :: back ∧
      (runEach front).exec ctx = (.ok (), middle) ∧ p.run.exec middle = (.error f, after) := by
  induction plugins generalizing ctx with
  | nil => cases failed
  | cons p rest ih =>
    rw [runEach, Action.exec_bind] at failed
    match ran : p.run.exec ctx with
    | (.error g, stopped) =>
      rw [ran] at failed
      exact ⟨[], p, rest, ctx, rfl, rfl, ran.trans failed⟩
    | (.ok (), passed) =>
      rw [ran] at failed
      obtain ⟨front, q, back, middle, rfl, before, stopped⟩ := ih failed
      refine ⟨p :: front, q, back, middle, rfl, ?_, stopped⟩
      rw [runEach, Action.exec_bind, ran]
      exact before

theorem runPhases_error {phases : List Phase}
    (failed : (t.runPhases phases).exec ctx = (.error f, after)) :
    ∃ earlier phase later entered, phases = earlier ++ phase :: later ∧
      (t.runPhases earlier).exec ctx = (.ok (), entered) ∧
      (t.runPhase phase).exec entered = (.error f, after) := by
  induction phases generalizing ctx with
  | nil => cases failed
  | cons phase rest ih =>
    rw [runPhases, Action.exec_bind] at failed
    match ran : (t.runPhase phase).exec ctx with
    | (.error g, stopped) =>
      rw [ran] at failed
      exact ⟨[], phase, rest, ctx, rfl, rfl, ran.trans failed⟩
    | (.ok (), passed) =>
      rw [ran] at failed
      obtain ⟨earlier, other, later, entered, rfl, before, stopped⟩ := ih failed
      refine ⟨phase :: earlier, other, later, entered, rfl, ?_, stopped⟩
      rw [runPhases, Action.exec_bind, ran]
      exact before

-- What the faults of the passes have in common with the start: the source, and a root that is an
-- element, which the structure pass asks for.
def Steady (t : Transformer ε σ) (source : String) (shared : σ) (ctx : Context (HandlerName ε) σ) :
    Prop :=
  ∃ a n, Stage t source shared a n ctx ∧ n.isElement = true

theorem steady_start (t : Transformer ε σ) (a : Ast) (source : String) (shared : σ) :
    Steady t source shared (t.start a source shared) :=
  ⟨a, .root, Stage.start t source shared a, rfl⟩

def Settles (t : Transformer ε σ) (source : String) (shared : σ)
    (action : Action (HandlerName ε) σ Unit) (fault : Fault) : Prop :=
  ∀ ctx, Steady t source shared ctx → ∀ result after, action.exec ctx = (result, after) →
    match result with
    | .ok () => Steady t source shared after
    | .error f => f = fault

theorem settles_of_reaches {action : Action (HandlerName ε) σ Unit} {fault : Fault}
    {step : Ast × Node → Except Fault (Ast × Node)}
    (reaches : ∀ a n, n.isElement = true → Reaches t source shared action a n (step (a, n)))
    (kept : ∀ a n b m, n.isElement = true → step (a, n) = .ok (b, m) → m.isElement = true)
    (faulty : ∀ reached f, step reached = .error f → f = fault) :
    Settles t source shared action fault := by
  intro ctx steady result after ran
  obtain ⟨a, n, stage, element⟩ := steady
  have one := reaches a n element ctx stage
  cases stepped : step (a, n) with
  | ok reached =>
    rw [stepped] at one
    obtain ⟨middle, went, staged⟩ := one
    rw [went] at ran
    cases ran
    exact ⟨_, _, staged, kept a n _ _ element stepped⟩
  | error f =>
    rw [stepped] at one
    obtain ⟨stopped, went⟩ := one
    rw [went] at ran
    cases ran
    exact faulty _ f stepped

theorem isElement_withChildren (n : Node) (kids : List Node) :
    (n.withChildren kids).isElement = n.isElement := by
  cases n <;> rfl

theorem isElement_editAll {edit : Node → Node} (own : ∀ n, (edit n).isElement = n.isElement)
    (n : Node) : (editAll edit n).1.isElement = n.isElement :=
  editWithin_view (f := Node.isElement)
    (fun m kids _ => (isElement_withChildren (edit m) kids).trans (own m)) _ n

theorem finished_error {α : Type} [Branching α] {edit : α → α} {top : α}
    (failed : Walk.finished edit top = .error f) : f = depthFault := by
  unfold Walk.finished at failed
  split at failed
  · cases failed
  · cases failed
    rfl

theorem settles_editNodes {edit : Node → Node} (refills : ∀ n, ∃ kids, edit n = n.withChildren kids) :
    Settles t source shared (Action.editNodes edit) depthFault := by
  have own : ∀ n, (edit n).isElement = n.isElement := by
    intro n
    obtain ⟨kids, same⟩ := refills n
    rw [same, isElement_withChildren]
  refine settles_of_reaches (fun a n _ => reaches_editNodes edit) ?_ ?_
  · intro a n b m element stepped
    obtain ⟨k, edited, same⟩ := ok_of_map stepped
    cases same
    obtain ⟨_, rfl⟩ := finished_ok_iff.mp edited
    rw [isElement_editAll own, element]
  · intro reached f failed
    exact finished_error (error_of_map failed)

theorem settles_normalize :
    Settles t source shared (normalize : Action (HandlerName ε) σ Unit) depthFault := by
  refine settles_of_reaches (fun a n _ => reaches_normalize) ?_ ?_
  · intro a n b m element stepped
    obtain ⟨c, _, same⟩ := ok_of_map stepped
    cases same
    exact element
  · intro reached f failed
    exact finished_error (error_of_map failed)

theorem settles_structured :
    Settles t source shared (structured : Action (HandlerName ε) σ Unit)
      (.tooDeep depthLimit "structure" (.text source) none) := by
  refine settles_of_reaches (fun a n element => reaches_structured element) ?_ ?_
  · intro a n b m element stepped
    obtain ⟨nodes, _, same⟩ := ok_of_map stepped
    cases same
    rw [isElement_withChildren, element]
  · intro reached f failed
    have stopped := error_of_map failed
    cases converted : nodesOf t.options.styleMode reached.1 with
    | ok nodes =>
      rw [converted] at stopped
      cases stopped
    | error g =>
      rw [converted, convert_error _ reached.1 .nothing 0 converted] at stopped
      cases stopped
      rfl

theorem Settles.plugin {p : Plugin (HandlerName ε) σ} {fault : Fault}
    (work : Settles t source shared p.work.apply fault) (own : fault.ofTransform = true) :
    Settles t source shared p.run fault := by
  intro ctx steady result after ran
  rw [Plugin.exec_run] at ran
  match went : p.work.apply.exec ctx with
  | (.ok (), middle) =>
    obtain ⟨a, n, stage, element⟩ := work ctx steady _ middle went
    rw [went] at ran
    cases ran
    refine ⟨a, n, ?_, element⟩
    rw [Context.withSetting, stage.root]
    exact stage.recount (Setting.uncounted_time _ _) n
  | (.error f, middle) =>
    obtain rfl : f = fault := work ctx steady _ middle went
    rw [went] at ran
    cases ran
    dsimp only
    rw [Plugin.blame, if_pos own]

-- The fault of a pass that is not of the capability phase. All but one of these passes leave it to
-- the walk to tell what is wrong.
def passFault (name source : String) : Fault :=
  if name = "block-structure" then .tooDeep depthLimit "structure" (.text source) none
  else depthFault

theorem settles_builtin {p : Plugin (HandlerName ε) σ} (given : p ∈ builtin)
    (other : p.phase ≠ .capability) :
    Settles t source shared p.run (passFault p.name source) := by
  simp only [builtin, List.mem_cons, List.not_mem_nil, or_false] at given
  rcases given with rfl | rfl | rfl | rfl | rfl | rfl | rfl | rfl
  · exact settles_normalize.plugin rfl
  · exact settles_structured.plugin rfl
  · exact (settles_editNodes fun n => ⟨_, rfl⟩).plugin rfl
  · exact (settles_editNodes fun n => n.refilled_if _ _).plugin rfl
  · exact (settles_editNodes fun n => n.refilled_if _ _).plugin rfl
  all_goals exact absurd rfl other

theorem steady_runEach {plugins : List (Plugin (HandlerName ε) σ)}
    (given : ∀ p ∈ plugins, p ∈ builtin ∧ p.phase ≠ .capability) (steady : Steady t source shared ctx)
    (ran : (runEach plugins).exec ctx = (.ok (), after)) : Steady t source shared after := by
  induction plugins generalizing ctx with
  | nil =>
    cases ran
    exact steady
  | cons p rest ih =>
    obtain ⟨known, other⟩ := given p List.mem_cons_self
    rw [runEach, Action.exec_bind] at ran
    match went : p.run.exec ctx with
    | (.error f, stopped) =>
      rw [went] at ran
      cases ran
    | (.ok (), middle) =>
      rw [went] at ran
      exact ih (fun q member => given q (List.mem_cons_of_mem _ member))
        (settles_builtin known other ctx steady _ middle went) ran

def capabilityFault (source : String) : Fault :=
  .tooDeep depthLimit "capability" (.text source) none

theorem exec_phase_shared {metadata : Table Value} {plugins : List (Plugin (HandlerName ε) σ)}
    {handlers more : List CapabilityHandler} (offers : List.Forall₂ (Offers metadata) plugins more)
    (batched : ∀ p ∈ plugins, p.isBatched = true) {r : Registry (HandlerName ε)}
    {done : List (Registration (HandlerName ε))} (holds : r.Holds done)
    (stand : List.Forall₂ Stands done handlers) (known : ctx.metadata = metadata)
    (idle : ctx.collecting = none) :
    ∃ (filled : Registry (HandlerName ε)) (registered : List (Registration (HandlerName ε))),
      filled.Holds registered ∧ (∀ g ∈ registered, Builtin g) ∧
      (Dispatch.phase t.perform plugins r).exec ctx = (Dispatch.flush t.perform filled).exec ctx := by
  induction offers generalizing r done handlers with
  | nil => exact ⟨r, done, holds, builtin_of_stands stand, rfl⟩
  | @cons p h rest others one _ ih =>
    obtain ⟨filled, g, collected, stands, _, held⟩ :=
      collect_offered one (batched p List.mem_cons_self) holds known
    obtain ⟨whole, registered, holding, each, same⟩ :=
      ih (fun q member => batched q (List.mem_cons_of_mem _ member)) held
        (List.rel_append stand (.cons stands .nil))
    refine ⟨whole, registered, holding, each, ?_⟩
    have kept : ({ ctx with collecting := none } : Context (HandlerName ε) σ) = ctx := by
      rw [← idle]
    unfold Dispatch.phase
    rw [batched p List.mem_cons_self, if_pos rfl, Action.exec_get_bind, collected, kept]
    exact same

theorem isElement_batchEdit {done : List (Registration (HandlerName ε))} (n : Node) :
    (batchEdit done n).isElement = n.isElement := by
  unfold batchEdit
  generalize done.filter (fun g => g.serves n) = picked
  induction picked generalizing n with
  | nil => rfl
  | cons g rest ih =>
    have one : (editBy g n).isElement = n.isElement := by
      unfold editBy
      cases g.handler with
      | builtin h => exact isElement_edit h n
      | extra e => rfl
    rw [List.foldl_cons, ih, one]

theorem settles_flush {filled : Registry (HandlerName ε)}
    {registered : List (Registration (HandlerName ε))} (holds : filled.Holds registered)
    (builtin : ∀ g ∈ registered, Builtin g) :
    Settles t source shared (Dispatch.flush t.perform filled) (capabilityFault source) := by
  intro ctx steady result after ran
  by_cases none : filled.count = 0
  · unfold Dispatch.flush at ran
    rw [if_pos none] at ran
    cases ran
    exact steady
  · obtain ⟨a, n, stage, element⟩ := steady
    obtain ⟨s, more, same, went⟩ :=
      walk_root (serves_batch t.extras holds builtin) ctx.root ctx.toSetting
    rw [Dispatch.exec_flush _ _ none, Transformer.perform, went, stage.source_eq] at ran
    cases all : (editAll (batchEdit registered) ctx.root).2 with
    | true =>
      rw [all] at ran
      cases ran
      refine ⟨a, _, stage.recount ?_ _, ?_⟩
      · rw [Setting.uncounted_countWalk, same]
      · rw [isElement_editAll isElement_batchEdit, stage.root, element]
    | false =>
      rw [all] at ran
      cases ran
      rfl

theorem settles_capability {plugins : List (Plugin (HandlerName ε) σ)}
    (given : ∀ p ∈ plugins, p ∈ capabilityPlugins) :
    Settles t source shared (Dispatch.phase t.perform plugins .empty) (capabilityFault source) := by
  intro ctx steady result after ran
  obtain ⟨a, n, stage, element⟩ := id steady
  obtain ⟨handlers, offers⟩ := offers_of_mem (s := ctx.toSetting) given
  have batched : ∀ p ∈ plugins, p.isBatched = true := by
    intro p member
    have known := given p member
    rw [capabilityPlugins_eq] at known
    simp only [List.mem_cons, List.not_mem_nil, or_false] at known
    rcases known with rfl | rfl | rfl <;> rfl
  obtain ⟨filled, registered, holds, each, same⟩ := exec_phase_shared (t := t) offers batched
    Registry.holds_empty .nil rfl stage.collecting
  rw [same] at ran
  exact settles_flush holds each ctx steady result after ran

theorem settles_runPhase (given : ∀ p ∈ t.plugins, p ∈ builtin) {phase : Phase}
    (steady : Steady t source shared ctx)
    (ran : (t.runPhase phase).exec ctx = (.ok (), after)) : Steady t source shared after := by
  have each : ∀ p ∈ Resolve.inPhase t.plugins phase, p ∈ builtin ∧ p.phase = phase := by
    intro p member
    obtain ⟨old, here⟩ := List.mem_filter.mp member
    exact ⟨given p old, beq_iff_eq.mp here⟩
  by_cases capability : phase = .capability
  · subst capability
    refine settles_capability (t := t) (fun p member => ?_) ctx steady _ after ran
    exact List.mem_filter.mpr ⟨(each p member).1, by rw [(each p member).2]; rfl⟩
  · have apart : ∀ p ∈ Resolve.inPhase t.plugins phase, p ∈ builtin ∧ p.phase ≠ .capability :=
      fun p member => ⟨(each p member).1, by rw [(each p member).2]; exact capability⟩
    cases phase with
    | capability => exact absurd rfl capability
    | _ => exact steady_runEach apart steady ran

theorem steady_runPhases (given : ∀ p ∈ t.plugins, p ∈ builtin) {phases : List Phase}
    (steady : Steady t source shared ctx)
    (ran : (t.runPhases phases).exec ctx = (.ok (), after)) : Steady t source shared after := by
  induction phases generalizing ctx with
  | nil =>
    cases ran
    exact steady
  | cons phase rest ih =>
    rw [runPhases, Action.exec_bind] at ran
    match went : (t.runPhase phase).exec ctx with
    | (.error f, stopped) =>
      rw [went] at ran
      cases ran
    | (.ok (), middle) =>
      rw [went] at ran
      exact ih (settles_runPhase given steady went) ran

structure StoppedIn (t : Transformer ε σ) (begun : Context (HandlerName ε) σ) (phase : Phase)
    (entered : Context (HandlerName ε) σ) (f : Fault) (after : Context (HandlerName ε) σ) : Prop where
  order : ∃ earlier later, Phase.all = earlier ++ phase :: later ∧
    (t.runPhases earlier).exec begun = (.ok (), entered)
  failed : (t.runPhase phase).exec entered = (.error f, after)

def StoppedAt (plugins : List (Plugin (HandlerName ε) σ)) (entered : Context (HandlerName ε) σ)
    (p : Plugin (HandlerName ε) σ) (f : Fault) (after : Context (HandlerName ε) σ) : Prop :=
  ∃ front back middle, plugins = front ++ p :: back ∧
    (runEach front).exec entered = (.ok (), middle) ∧ p.run.exec middle = (.error f, after)

theorem passFault_reports {p : Plugin (HandlerName ε) σ} (given : p ∈ builtin) (source : String) :
    (passFault p.name source).Reports p.phase (.text source) ↔ passFault p.name source ≠ depthFault := by
  refine ⟨Fault.Reports.ne_depthFault, fun other => ?_⟩
  simp only [builtin, List.mem_cons, List.not_mem_nil, or_false] at given
  rcases given with rfl | rfl | rfl | rfl | rfl | rfl | rfl | rfl
  · exact absurd rfl other
  · exact ⟨rfl, rfl⟩
  all_goals exact absurd rfl other

theorem runPhase_stopped (given : ∀ p ∈ t.plugins, p ∈ builtin) {phase : Phase}
    (other : phase ≠ .capability) (steady : Steady t source shared ctx)
    (failed : (t.runPhase phase).exec ctx = (.error f, after)) :
    ∃ p ∈ builtin, p.phase = phase ∧ StoppedAt (Resolve.inPhase t.plugins phase) ctx p f after ∧
      f = passFault p.name source := by
  have each : ∀ p ∈ Resolve.inPhase t.plugins phase, p ∈ builtin ∧ p.phase = phase := by
    intro p member
    obtain ⟨old, here⟩ := List.mem_filter.mp member
    exact ⟨given p old, beq_iff_eq.mp here⟩
  have ran : (runEach (Resolve.inPhase t.plugins phase)).exec ctx = (.error f, after) := by
    cases phase with
    | capability => exact absurd rfl other
    | _ => exact failed
  obtain ⟨front, p, back, middle, split, before, stopped⟩ := runEach_error ran
  rw [split] at each
  obtain ⟨known, placed⟩ := each p (by simp)
  have still : Steady t source shared middle := by
    refine steady_runEach (fun q member => ?_) steady before
    obtain ⟨old, here⟩ := each q (by simp [member])
    exact ⟨old, by rwa [here]⟩
  refine ⟨p, known, placed, ⟨front, back, middle, split, before, stopped⟩, ?_⟩
  exact settles_builtin known (by rwa [placed]) middle still _ after stopped

-- Whichever of its passes a transform has left, a run that fails has met something too deep. The
-- fault tells the phase and the source if it is from the structure pass or from the shared walk;
-- all other passes let the fault of the walk through, which tells neither.
theorem run_reported (o : Options (HandlerName ε) σ)
    (disabling : ∀ c ∈ o.plugins, c.replacements = [] ∧ c.extra = [])
    (extras : ε → Handler (HandlerName ε) σ) (a : Ast) (source : String) (shared : σ)
    (failed : (ofOptions o extras).run.exec ((ofOptions o extras).start a source shared) =
      (.error f, after)) :
    ∃ phase entered,
      StoppedIn (ofOptions o extras) ((ofOptions o extras).start a source shared) phase entered f after ∧
      (phase = .capability ∧ f = capabilityFault source ∨
        phase ≠ .capability ∧ ∃ p ∈ builtin, p.phase = phase ∧
          StoppedAt (Resolve.inPhase (ofOptions o extras).plugins phase) entered p f after ∧
          f = passFault p.name source) ∧
      (f.Reports phase (.text source) ↔ f ≠ depthFault) := by
  have given := given_of_disabling disabling extras
  obtain ⟨earlier, phase, later, entered, order, done, stopped⟩ := runPhases_error failed
  have steady := steady_runPhases given (steady_start _ a source shared) done
  refine ⟨phase, entered, ⟨⟨earlier, later, order, done⟩, stopped⟩, ?_⟩
  by_cases capability : phase = .capability
  · subst capability
    have told : f = capabilityFault source := by
      refine settles_capability (t := ofOptions o extras) (fun p member => ?_) entered steady _ after
        stopped
      obtain ⟨old, here⟩ := List.mem_filter.mp member
      exact List.mem_filter.mpr ⟨given p old, here⟩
    refine ⟨.inl ⟨rfl, told⟩, ?_⟩
    rw [told]
    exact ⟨Fault.Reports.ne_depthFault, fun _ => ⟨rfl, rfl⟩⟩
  · obtain ⟨p, known, placed, at', told⟩ := runPhase_stopped given capability steady stopped
    refine ⟨.inr ⟨capability, p, known, placed, at', told⟩, ?_⟩
    rw [told, ← placed]
    exact passFault_reports known source

theorem run_error (unchanged : t.plugins = builtin) (inside : Within maxDepth a)
    (refused : t.grown source (t.converted a) = .error f) :
    ∃ after, t.run.exec (t.start a source shared) = (.error f, after) := by
  have reaches : Reaches t source shared t.run a .root (t.passes source (a, .root)) :=
    reaches_run unchanged
  rw [passes_of_within t inside, refused] at reaches
  exact reaches _ (Stage.start t source shared a)

theorem deepItem_stopped (source : String) :
    ∃ after, usual.run.exec (usual.start deepItem source ()) = (.error depthFault, after) :=
  run_error usual_plugins deepItem_within
    (grown_error source (converted_within usual rfl deepItem_within) (converted_proper usual deepItem)
      deepItem_itemAt)

theorem deepItem_traced :
    ∃ after phase entered,
      usual.run.exec (usual.start deepItem "x" ()) = (.error depthFault, after) ∧
      StoppedIn usual (usual.start deepItem "x" ()) phase entered depthFault after ∧
      phase ≠ .capability := by
  obtain ⟨after, failed⟩ := deepItem_stopped "x"
  obtain ⟨phase, entered, stopped, told, _⟩ :=
    run_reported usual.options (by decide) usual.extras deepItem "x" () failed
  refine ⟨after, phase, entered, failed, stopped, ?_⟩
  rcases told with ⟨_, wrong⟩ | ⟨other, _⟩
  · have phases := congrArg Fault.phase? wrong
    exact absurd phases (by decide)
  · exact other

theorem deepItem_unreported :
    deepItem.head.kind = .root ∧ Within maxDepth deepItem ∧
      ∃ f after, usual.run.exec (usual.start deepItem "x" ()) = (.error f, after) ∧
        f.ofTransform = true ∧ ∀ phase ∈ Phase.all, ¬f.Reports phase (.text "x") := by
  obtain ⟨after, failed⟩ := deepItem_stopped "x"
  exact ⟨rfl, deepItem_within, depthFault, after, failed, rfl,
    fun phase _ => depthFault_unreported phase _⟩

end Transformer
end SemanticMarkup
