import SemanticMarkup.Proofs.Conversion.Meaning
import SemanticMarkup.Proofs.Pipeline.Capability
import SemanticMarkup.Proofs.Pipeline.Markers

namespace SemanticMarkup
open Passes Dispatch

def Walk.finished {α : Type} [Branching α] (edit : α → α) (a : α) : Except Fault α :=
  if (editAll edit a).2 then .ok (editAll edit a).1 else .error depthFault

theorem Walk.finished_ok_iff {α : Type} [Branching α] {edit : α → α} {a b : α} :
    finished edit a = .ok b ↔ (editAll edit a).2 = true ∧ (editAll edit a).1 = b := by
  unfold finished
  cases (editAll edit a).2 with
  | true => simp
  | false => simp

namespace Passes

def flagAst (a : Ast) : Ast := .node (flagBlank a.head) a.children

def flattenIn (n : Node) : Node := if n.hasSourceTag Tag.table then flattenTable n else n

end Passes

theorem Plugin.exec_run {κ σ : Type} (p : Plugin κ σ) (ctx : Context κ σ) :
    p.run.exec ctx =
      match p.work.apply.exec ctx with
      | (.ok (), after) => (.ok (), after.withSetting (after.toSetting.time p.name))
      | (.error f, after) => (.error (blame p.name p.phase.name after.source f), after) := by
  unfold Plugin.run
  rw [Action.exec_get_bind]
  cases p.work.apply.exec ctx with
  | mk result after => cases result <;> rfl

namespace Transformer
variable {ε σ : Type}

theorem builtin_sorted : (builtin : List (Plugin (HandlerName ε) σ)).Pairwise fun p q =>
    Resolve.before p q = true := by
  simp [builtin, Resolve.before, plain, batched, Phase.rank]

theorem ofOptions_plugins (o : Options (HandlerName ε) σ) (extras : ε → Handler (HandlerName ε) σ)
    (unchanged : o.plugins.getD .empty = .empty) : (ofOptions o extras).plugins = builtin := by
  have kept : (builtin : List (Plugin (HandlerName ε) σ)).filter (Resolve.isKept .empty) = builtin := rfl
  have same : (builtin : List (Plugin (HandlerName ε) σ)).map (Resolve.standIn .empty) = builtin := rfl
  have none : (PluginConfig.empty : PluginConfig (HandlerName ε) σ).extra = [] := rfl
  unfold ofOptions Resolve.plugins
  rw [unchanged, kept, same, none, List.append_nil]
  exact List.mergeSort_of_pairwise builtin_sorted

def usual : Transformer Empty Unit :=
  ofOptions ⟨.flag true, .flag false, .inline, .text Stylesheet.defaultRoot, none, .flag false,
    .flag true⟩ nofun

theorem usual_plugins : usual.plugins = builtin := ofOptions_plugins _ _ rfl

-- The context of a transform as a pass finds it: this tree, and the setting of the start but for
-- the markup and what has been counted.
structure Stage (t : Transformer ε σ) (source : String) (shared : σ) (a : Ast) (n : Node)
    (ctx : Context (HandlerName ε) σ) : Prop where
  setting : ctx.toSetting.uncounted = (t.start a source shared).toSetting.uncounted
  root : ctx.root = n

variable {t : Transformer ε σ} {source : String} {shared : σ} {a : Ast} {n : Node}
  {ctx : Context (HandlerName ε) σ}

namespace Stage

theorem start (t : Transformer ε σ) (source : String) (shared : σ) (a : Ast) :
    Stage t source shared a .root (t.start a source shared) := ⟨rfl, rfl⟩

theorem ast (stage : Stage t source shared a n ctx) : ctx.ast = a := by
  have asts := congrArg Setting.ast stage.setting
  exact asts

theorem source_eq (stage : Stage t source shared a n ctx) : ctx.source = .text source := by
  have sources := congrArg Setting.source stage.setting
  exact sources

theorem metadata (stage : Stage t source shared a n ctx) : ctx.metadata = t.options.metadata := by
  have tables := congrArg Setting.metadata stage.setting
  exact tables

theorem collecting (stage : Stage t source shared a n ctx) : ctx.collecting = none := by
  have registries := congrArg Setting.collecting stage.setting
  exact registries

theorem counted (stage : Stage t source shared a n ctx) :
    ctx.metrics.isSome = t.options.debug.isTrue := by
  have counts := congrArg (fun s => s.metrics.isSome) stage.setting
  simp only [Setting.uncounted, Option.isSome_map] at counts
  rw [counts, Transformer.start]
  cases t.options.debug.isTrue <;> rfl

theorem styleHandler (stage : Stage t source shared a n ctx) :
    styleHandler ctx.toSetting =
      .style t.options.removeAllStyle.isTrue t.options.removeAllClass.isTrue := by
  unfold Passes.styleHandler Setting.option
  rw [stage.metadata]
  rfl

theorem withRoot (stage : Stage t source shared a n ctx) (m : Node) :
    Stage t source shared a m { ctx with root := m } := ⟨stage.setting, rfl⟩

theorem withAst (stage : Stage t source shared a n ctx) (b : Ast) :
    Stage t source shared b n { ctx with ast := b } :=
  ⟨congrArg (fun s => { s with ast := b }) stage.setting, stage.root⟩

theorem recount (stage : Stage t source shared a n ctx) {s : Setting (HandlerName ε) σ}
    (same : s.uncounted = ctx.toSetting.uncounted) (m : Node) :
    Stage t source shared a m { s with root := m } := ⟨same.trans stage.setting, rfl⟩

end Stage

-- What an action makes of the markup and the tree at a stage, whatever was counted before.
def Reaches (t : Transformer ε σ) (source : String) (shared : σ)
    (action : Action (HandlerName ε) σ Unit) (a : Ast) (n : Node)
    (result : Except Fault (Ast × Node)) : Prop :=
  ∀ ctx, Stage t source shared a n ctx →
    match result with
    | .ok (b, m) => ∃ after, action.exec ctx = (.ok (), after) ∧ Stage t source shared b m after
    | .error f => ∃ after, action.exec ctx = (.error f, after)

theorem Reaches.bind {first next : Action (HandlerName ε) σ Unit}
    {result : Except Fault (Ast × Node)} {step : Ast × Node → Except Fault (Ast × Node)}
    (before : Reaches t source shared first a n result)
    (after : ∀ b m, result = .ok (b, m) → Reaches t source shared next b m (step (b, m))) :
    Reaches t source shared (do first; next) a n (result >>= step) := by
  intro ctx stage
  have one := before ctx stage
  rw [Action.exec_bind]
  cases result with
  | error f =>
    obtain ⟨stopped, ran⟩ := one
    exact ⟨stopped, by rw [ran]⟩
  | ok reached =>
    obtain ⟨middle, ran, staged⟩ := one
    rw [ran]
    exact after reached.1 reached.2 rfl middle staged

theorem reaches_pure : Reaches t source shared (pure ()) a n (.ok (a, n)) :=
  fun ctx stage => ⟨ctx, rfl, stage⟩

theorem reaches_plugin {p : Plugin (HandlerName ε) σ} {result : Except Fault (Ast × Node)}
    (work : Reaches t source shared p.work.apply a n result)
    (own : ∀ f, result = .error f → f.ofTransform = true) :
    Reaches t source shared p.run a n result := by
  intro ctx stage
  have one := work ctx stage
  rw [Plugin.exec_run]
  cases result with
  | error f =>
    obtain ⟨stopped, ran⟩ := one
    refine ⟨stopped, ?_⟩
    rw [ran]
    dsimp only
    rw [Plugin.blame, if_pos (own f rfl)]
  | ok reached =>
    obtain ⟨middle, ran, staged⟩ := one
    refine ⟨_, by rw [ran], ?_⟩
    rw [Context.withSetting, staged.root]
    exact staged.recount (Setting.uncounted_time _ _) reached.2

def treeStep (edit : Node → Node) (reached : Ast × Node) : Except Fault (Ast × Node) :=
  (Walk.finished edit reached.2).map fun n => (reached.1, n)

def markupStep (edit : Ast → Ast) (reached : Ast × Node) : Except Fault (Ast × Node) :=
  (Walk.finished edit reached.1).map fun a => (a, reached.2)

def fillStep (mode : StyleMode) (source : String) (reached : Ast × Node) : Except Fault (Ast × Node) :=
  ((nodesOf mode reached.1).mapError (Fault.withSource (.text source))).map fun nodes =>
    (reached.1, reached.2.withChildren (reached.2.children ++ nodes))

def capabilityStep (t : Transformer ε σ) (source : String) (reached : Ast × Node) :
    Except Fault (Ast × Node) :=
  ((Walk.finished (served t.options.removeAllStyle.isTrue t.options.removeAllClass.isTrue)
      reached.2).mapError fun _ => .tooDeep depthLimit "capability" (.text source) none).map
    fun n => (reached.1, n)

theorem finished_ofTransform {α β : Type} [Branching α] {edit : α → α} {top : α} {put : α → β}
    {f : Fault} (failed : (Walk.finished edit top).map put = .error f) : f.ofTransform = true := by
  have walked := error_of_map failed
  unfold Walk.finished at walked
  split at walked
  · cases walked
  · cases walked
    rfl

theorem reaches_editNodes (edit : Node → Node) :
    Reaches t source shared (Action.editNodes edit) a n (treeStep edit (a, n)) := by
  intro ctx stage
  rw [Action.exec_editNodes, Walk.edited_fst, Walk.edited_snd, stage.root]
  unfold treeStep Walk.finished
  dsimp only
  cases (Walk.editAll edit n).2 with
  | true => exact ⟨_, rfl, stage.withRoot _⟩
  | false => exact ⟨_, rfl⟩

theorem reaches_normalize :
    Reaches t source shared Passes.normalize a n (markupStep flagAst (a, n)) := by
  intro ctx stage
  unfold Passes.normalize
  rw [Action.exec_editMarkup, Walk.edited_fst, Walk.edited_snd, stage.ast]
  unfold markupStep Walk.finished flagAst
  dsimp only
  cases (Walk.editAll (fun a => Ast.node (flagBlank a.head) a.children) a).2 with
  | true => exact ⟨_, rfl, stage.withAst _⟩
  | false => exact ⟨_, rfl⟩

theorem mode_chosen (stage : Stage t source shared a n ctx) :
    StyleMode.ofValue (ctx.option "style_mode" (.text "inline")) = .ok t.options.styleMode := by
  have given : ctx.option "style_mode" (.text "inline") = .text t.options.styleMode.name := by
    rw [Setting.option, stage.metadata]
    rfl
  rw [given]
  cases t.options.styleMode <;> rfl

theorem reaches_structured (element : n.isElement = true) :
    Reaches t source shared structured a n (fillStep t.options.styleMode source (a, n)) := by
  intro ctx stage
  rw [exec_structured (by rw [stage.root, element]) (mode_chosen stage), stage.ast, stage.root,
    stage.source_eq]
  unfold fillStep
  dsimp only
  cases nodesOf t.options.styleMode a with
  | ok nodes => exact ⟨_, rfl, stage.withRoot _⟩
  | error f => exact ⟨_, rfl⟩

theorem fillStep_ofTransform {mode : StyleMode} {reached : Ast × Node} {f : Fault}
    (failed : fillStep mode source reached = .error f) : f.ofTransform = true := by
  unfold fillStep at failed
  cases converted : nodesOf mode reached.1 with
  | ok nodes =>
    rw [converted] at failed
    cases failed
  | error g =>
    rw [converted, convert_error mode reached.1 .nothing 0 converted] at failed
    cases failed
    rfl

theorem phase_builtin (perform : HandlerName ε → Handler (HandlerName ε) σ)
    (ctx : Context (HandlerName ε) σ) :
    (Dispatch.phase perform (Resolve.inPhase builtin .capability) .empty).exec ctx =
      (Dispatch.flush perform (handlers (ctx.option "remove_all_style" (.flag false)).isTrue
        (ctx.option "remove_all_class" (.flag true)).isTrue)).exec { ctx with collecting := none } :=
  rfl

theorem reaches_capability :
    Reaches t source shared (Dispatch.phase t.perform (Resolve.inPhase builtin .capability) .empty) a n
      (t.capabilityStep source (a, n)) := by
  intro ctx stage
  have style : ctx.option "remove_all_style" (.flag false) = t.options.removeAllStyle := by
    rw [Setting.option, stage.metadata]
    rfl
  have classes : ctx.option "remove_all_class" (.flag true) = t.options.removeAllClass := by
    rw [Setting.option, stage.metadata]
    rfl
  have idle : ({ ctx with collecting := none } : Context (HandlerName ε) σ) = ctx := by
    rw [← stage.collecting]
  obtain ⟨s, more, same, went⟩ := walk_root
    (handlers_serve t.extras t.options.removeAllStyle.isTrue t.options.removeAllClass.isTrue)
    n ctx.toSetting
  rw [phase_builtin, style, classes, idle, Dispatch.exec_flush _ _ (by simp [handlers]), stage.root,
    Transformer.perform, went, stage.source_eq]
  unfold capabilityStep Walk.finished
  dsimp only
  cases (Walk.editAll (served t.options.removeAllStyle.isTrue t.options.removeAllClass.isTrue) n).2 with
  | true =>
    refine ⟨_, rfl, stage.recount ?_ _⟩
    rw [Setting.uncounted_countWalk, same]
  | false => exact ⟨_, rfl⟩

def structuringSteps (t : Transformer ε σ) (source : String) :
    Ast × Node → Except Fault (Ast × Node) :=
  fillStep t.options.styleMode source >=> treeStep Node.mergeChildren >=> treeStep markListsIn >=>
    treeStep flattenIn

def passes (t : Transformer ε σ) (source : String) : Ast × Node → Except Fault (Ast × Node) :=
  markupStep flagAst >=> t.structuringSteps source >=> t.capabilityStep source

theorem structuring_ok {b : Ast} {m : Node}
    (fine : (markupStep flagAst >=> t.structuringSteps source) (a, .root) = .ok (b, m)) :
    ∃ nodes merged listed, Walk.finished flagAst a = .ok b ∧
      nodesOf t.options.styleMode b = .ok nodes ∧
      Walk.finished Node.mergeChildren (Node.root.withChildren nodes) = .ok merged ∧
      Walk.finished markListsIn merged = .ok listed ∧ Walk.finished flattenIn listed = .ok m := by
  obtain ⟨flagged, first, steps⟩ := ok_of_bind fine
  obtain ⟨c, normal, rfl⟩ := ok_of_map first
  obtain ⟨filled, second, later⟩ := ok_of_bind steps
  obtain ⟨nodes, given, rfl⟩ := ok_of_map second
  obtain ⟨third, one, rest⟩ := ok_of_bind later
  obtain ⟨merged, joined, rfl⟩ := ok_of_map one
  obtain ⟨fourth, two, last⟩ := ok_of_bind rest
  obtain ⟨listed, marked, rfl⟩ := ok_of_map two
  obtain ⟨flat, three, same⟩ := ok_of_map last
  cases same
  exact ⟨nodes, merged, listed, normal, ok_of_mapError given, joined, marked, three⟩

theorem reaches_cons {p : Plugin (HandlerName ε) σ} {rest : List (Plugin (HandlerName ε) σ)}
    {result : Except Fault (Ast × Node)} {step : Ast × Node → Except Fault (Ast × Node)}
    (one : Reaches t source shared p.run a n result)
    (others : ∀ b m, result = .ok (b, m) →
      Reaches t source shared (runEach rest) b m (step (b, m))) :
    Reaches t source shared (runEach (p :: rest)) a n (result >>= step) := one.bind others

theorem reaches_last {p : Plugin (HandlerName ε) σ} {result : Except Fault (Ast × Node)}
    (one : Reaches t source shared p.run a n result) :
    Reaches t source shared (runEach [p]) a n result := by
  have both : Reaches t source shared (runEach [p]) a n (result >>= pure) :=
    reaches_cons one fun b m _ => reaches_pure
  have same : result >>= pure = result := bind_pure result
  rwa [same] at both

theorem reaches_structuring (element : n.isElement = true) :
    Reaches t source shared (runEach (Resolve.inPhase builtin .structuring)) a n
      (t.structuringSteps source (a, n)) := by
  have edited : ∀ (name : String) (order : Int) (edit : Node → Node) (b : Ast) (m : Node),
      Reaches t source shared
        (plain name .structuring order (Action.editNodes edit) : Plugin (HandlerName ε) σ).run b m
        (treeStep edit (b, m)) :=
    fun _ _ edit b m => reaches_plugin (reaches_editNodes edit) fun f => finished_ofTransform
  show Reaches t source shared _ a n (fillStep t.options.styleMode source (a, n) >>=
    (treeStep Node.mergeChildren >=> treeStep markListsIn >=> treeStep flattenIn))
  refine reaches_cons (reaches_plugin (reaches_structured element) fun f => fillStep_ofTransform) ?_
  intro b m _
  show Reaches t source shared _ b m (treeStep Node.mergeChildren (b, m) >>=
    (treeStep markListsIn >=> treeStep flattenIn))
  refine reaches_cons (edited _ _ Node.mergeChildren b m) ?_
  intro c k _
  show Reaches t source shared _ c k (treeStep markListsIn (c, k) >>= treeStep flattenIn)
  refine reaches_cons (edited _ _ markListsIn c k) ?_
  intro d j _
  exact reaches_last (edited _ _ flattenIn d j)

theorem reaches_phases_from {flag step : Ast × Node → Except Fault (Ast × Node)}
    (others : ∀ phase, phase ≠ .normalize → phase ≠ .capability →
      Resolve.inPhase t.plugins phase = Resolve.inPhase builtin phase)
    (flags : Reaches t source shared (runEach (Resolve.inPhase t.plugins .normalize)) a .root
      (flag (a, .root)))
    (root : ∀ b m, flag (a, .root) = .ok (b, m) → m.isElement = true)
    (dresses : ∀ b m, (flag >=> t.structuringSteps source) (a, .root) = .ok (b, m) →
      Reaches t source shared (Dispatch.phase t.perform (Resolve.inPhase t.plugins .capability) .empty)
        b m (step (b, m))) :
    Reaches t source shared t.run a .root ((flag >=> t.structuringSteps source >=> step) (a, .root)) := by
  have last : ∀ b m, Reaches t source shared
      (do runEach (Resolve.inPhase builtin .finalize); pure ()) b m (pure (b, m)) :=
    fun b m => reaches_pure.bind fun _ _ _ => reaches_pure
  unfold Transformer.run Phase.all runPhases runPhases runPhases runPhases runPhases runPhase
  rw [others .structuring nofun nofun, others .finalize nofun nofun]
  show Reaches t source shared _ a .root (flag (a, .root) >>= (t.structuringSteps source >=> step))
  refine flags.bind fun b m ok => ?_
  show Reaches t source shared _ b m (t.structuringSteps source (b, m) >>= step)
  -- The structure pass asks for an element to fill.
  refine (reaches_structuring (root b m ok)).bind fun c k fine => ?_
  have got : (flag >=> t.structuringSteps source) (a, .root) = .ok (c, k) := by
    show (flag (a, .root) >>= t.structuringSteps source) = _
    rw [ok]
    exact fine
  have same : step (c, k) >>= pure = step (c, k) := bind_pure _
  rw [← same]
  exact (dresses c k got).bind fun d j _ => last d j

theorem reaches_phases_by {step : Ast × Node → Except Fault (Ast × Node)}
    (others : ∀ phase, phase ≠ .capability →
      Resolve.inPhase t.plugins phase = Resolve.inPhase builtin phase)
    (dresses : ∀ b m, (markupStep flagAst >=> t.structuringSteps source) (a, .root) = .ok (b, m) →
      Reaches t source shared (Dispatch.phase t.perform (Resolve.inPhase t.plugins .capability) .empty)
        b m (step (b, m))) :
    Reaches t source shared t.run a .root
      ((markupStep flagAst >=> t.structuringSteps source >=> step) (a, .root)) := by
  have flagged : Reaches t source shared (runEach (Resolve.inPhase builtin .normalize)) a .root
      (markupStep flagAst (a, .root)) :=
    reaches_last (reaches_plugin reaches_normalize fun f => finished_ofTransform)
  refine reaches_phases_from (fun phase _ => others phase) ?_ ?_ dresses
  · rwa [others .normalize nofun]
  · intro b m ok
    obtain ⟨c, _, same⟩ := ok_of_map ok
    cases same
    rfl

theorem reaches_phases
    (others : ∀ phase, phase ≠ .capability →
      Resolve.inPhase t.plugins phase = Resolve.inPhase builtin phase)
    (dresses : ∀ b m, (markupStep flagAst >=> t.structuringSteps source) (a, .root) = .ok (b, m) →
      Reaches t source shared (Dispatch.phase t.perform (Resolve.inPhase t.plugins .capability) .empty)
        b m (t.capabilityStep source (b, m))) :
    Reaches t source shared t.run a .root (t.passes source (a, .root)) :=
  reaches_phases_by others dresses

theorem reaches_run (unchanged : t.plugins = builtin) :
    Reaches t source shared t.run a .root (t.passes source (a, .root)) := by
  refine reaches_phases (fun _ _ => by rw [unchanged]) fun _ _ _ => ?_
  rw [unchanged]
  exact reaches_capability

def checked (t : Transformer ε σ) (root : Node) : Except Fault (List Node) :=
  (if t.options.validate.isTrue then check root else .ok ()).map fun _ => resultOf root

def delivered (t : Transformer ε σ) (root : Node) : Except Fault (List Node) :=
  (if t.options.debug.isTrue then (Walk.all root).map fun _ => () else .ok ()) >>= fun _ =>
    t.checked root

theorem result_of_checked {root : Node} {nodes : List Node} (fine : t.checked root = .ok nodes) :
    nodes = resultOf root := by
  obtain ⟨_, _, same⟩ := ok_of_map fine
  exact same.symm

theorem exec_countNodes (ctx : Context (HandlerName ε) σ) :
    ∃ after, countNodes.exec ctx =
      ((if ctx.metrics.isSome then (Walk.all ctx.root).map fun _ => () else .ok ()), after) ∧
        after.root = ctx.root := by
  unfold countNodes
  rw [Action.exec_get_bind]
  cases counts : ctx.metrics with
  | none => exact ⟨ctx, rfl, rfl⟩
  | some m =>
    dsimp only
    rw [Action.exec_bind, Action.exec_lift]
    cases Walk.all ctx.root with
    | ok nodes => exact ⟨_, rfl, rfl⟩
    | error f => exact ⟨ctx, rfl, rfl⟩

theorem exec_complete (t : Transformer ε σ) (ctx : Context (HandlerName ε) σ) :
    (t.complete.exec ctx).1 =
      match t.run.exec ctx with
      | (.error f, _) => .error f
      | (.ok (), after) =>
        (if after.metrics.isSome then (Walk.all after.root).map fun _ => () else .ok ()) >>= fun _ =>
          t.checked after.root := by
  unfold complete
  rw [Action.exec_bind]
  match t.run.exec ctx with
  | (.error f, _) => rfl
  | (.ok (), middle) =>
    obtain ⟨after, counted, kept⟩ := exec_countNodes middle
    dsimp only
    rw [Action.exec_bind, counted]
    cases (if middle.metrics.isSome then (Walk.all middle.root).map fun _ => () else .ok ()) with
    | error f => rfl
    | ok _ =>
      dsimp only
      rw [Action.exec_get_bind, kept]
      show _ = t.checked middle.root
      unfold checked
      cases t.options.validate.isTrue with
      | false => rfl
      | true =>
        rw [if_pos rfl, if_pos rfl]
        rw [Action.exec_bind, Action.exec_lift]
        cases check middle.root with
        | ok _ => rfl
        | error f => rfl

theorem complete_of_reached {result : Except Fault (Ast × Node)}
    (reaches : Reaches t source shared t.run a .root result) :
    (t.complete.exec (t.start a source shared)).1 =
      (result >>= fun reached => t.delivered reached.2) := by
  have ran := reaches _ (Stage.start t source shared a)
  rw [exec_complete]
  cases result with
  | error f =>
    obtain ⟨stopped, failed⟩ := ran
    rw [failed]
    rfl
  | ok reached =>
    obtain ⟨middle, went, stage⟩ := ran
    rw [went]
    dsimp only
    rw [stage.counted, stage.root]
    rfl

theorem complete_of_reaches
    (reaches : Reaches t source shared t.run a .root (t.passes source (a, .root))) :
    (t.complete.exec (t.start a source shared)).1 =
      (t.passes source (a, .root) >>= fun reached => t.delivered reached.2) :=
  complete_of_reached reaches

theorem complete_eq (t : Transformer ε σ) (unchanged : t.plugins = builtin) (a : Ast)
    (source : String) (shared : σ) :
    (t.complete.exec (t.start a source shared)).1 =
      (t.passes source (a, .root) >>= fun reached => t.delivered reached.2) :=
  complete_of_reaches (reaches_run unchanged)

end Transformer
end SemanticMarkup
