import SemanticMarkup.Proofs.Pipeline.Dressing

namespace SemanticMarkup
open Walk Passes Dispatch

namespace Plugin
variable {κ σ : Type}

def unbatched (p : Plugin κ σ) : Plugin κ σ := { p with work := { p.work with handlers? := none } }

def separated (separate : String → Bool) (p : Plugin κ σ) : Plugin κ σ :=
  if separate p.name then p.unbatched else p

theorem separated_phase (separate : String → Bool) (p : Plugin κ σ) :
    (p.separated separate).phase = p.phase := by
  unfold separated
  split <;> rfl

theorem separated_of_none (separate : String → Bool) {p : Plugin κ σ}
    (none : p.work.handlers? = .none) : p.separated separate = p := by
  unfold separated unbatched
  split
  · rw [← none]
  · rfl

end Plugin

-- What the capability phase leaves alone in a setting, if nothing else: all but what is counted
-- and the registry that is being filled.
def Setting.idle {κ σ : Type} (s : Setting κ σ) : Setting κ σ := { s.uncounted with collecting := none }

theorem Setting.idle_of_none {κ σ : Type} {s : Setting κ σ} (none : s.collecting = .none) :
    s.idle = s.uncounted := by
  unfold idle
  rw [← none]
  rfl

namespace Passes
variable {ε σ : Type} {metadata : Table Value} {p : Plugin (HandlerName ε) σ} {h : CapabilityHandler}
  {handlers more : List CapabilityHandler} {ctx middle after : Context (HandlerName ε) σ}

-- A plugin that edits all elements with a handler, and registers that one if it registers any.
-- Which handler it is may depend on the options.
structure Offers (metadata : Table Value) (p : Plugin (HandlerName ε) σ) (h : CapabilityHandler) :
    Prop where
  apply : ∀ ctx, ctx.metadata = metadata → p.work.apply.exec ctx = (applyToElements h).exec ctx
  handlers : ∀ action, p.work.handlers? = some action → ∀ ctx, ctx.metadata = metadata →
    action.exec ctx = (.ok [(.text h.key, some (.builtin h))], ctx)

structure Dressable (metadata : Table Value) (ctx : Context (HandlerName ε) σ) : Prop where
  metadata : ctx.metadata = metadata
  inside : Within maxDepth ctx.root
  imaged : Everywhere Node.Imaged ctx.root

-- All elements have been edited with these handlers, and nothing else has changed that lasts.
structure Dressed (handlers : List CapabilityHandler) (ctx after : Context (HandlerName ε) σ) :
    Prop where
  root : after.root = (editAll (onElements handlers) ctx.root).1
  setting : after.toSetting.idle = ctx.toSetting.idle
  collecting : ctx.collecting = none → after.collecting = none

theorem Dressed.dressable (dressed : Dressed handlers ctx after) (able : Dressable metadata ctx) :
    Dressable metadata after := by
  have tables := congrArg Setting.metadata dressed.setting
  refine ⟨Eq.trans tables able.metadata, ?_, ?_⟩
  · rw [dressed.root]
    exact ((shallow_onElements handlers).done able.inside (Nat.lt_succ_self maxDepth)).2
  · rw [dressed.root]
    exact imaged_editAll handlers able.imaged

theorem Dressed.trans (first : Dressed handlers ctx middle) (second : Dressed more middle after)
    (able : Dressable metadata ctx) : Dressed (handlers ++ more) ctx after where
  root := by
    rw [second.root, first.root, onElements_append]
    exact congrArg Prod.fst ((shallow_onElements handlers).editWithin_comp (shallow_onElements more)
      able.inside (Nat.lt_succ_self maxDepth))
  setting := second.setting.trans first.setting
  collecting none := second.collecting (first.collecting none)

theorem exec_apply (offers : Offers metadata p h) (able : Dressable metadata ctx) :
    ∃ after, p.work.apply.exec ctx = (.ok (), after) ∧ Dressed [h] ctx after := by
  have done : (editAll h.onElement ctx.root).2 = true :=
    ((shallow_onElement h).done able.inside (Nat.lt_succ_self maxDepth)).1
  have edited : (applyToElements h : Action (HandlerName ε) σ Unit).exec ctx =
      ((Walk.edited h.onElement ctx.root).2,
        { ctx with root := (Walk.edited h.onElement ctx.root).1 }) := Action.exec_editNodes _ ctx
  rw [offers.apply ctx able.metadata, edited, edited_fst, edited_snd, if_pos done]
  exact ⟨_, rfl, rfl, rfl, id⟩

theorem exec_plugin (offers : Offers metadata p h) (able : Dressable metadata ctx) :
    ∃ after, p.run.exec ctx = (.ok (), after) ∧ Dressed [h] ctx after := by
  obtain ⟨after, ran, dressed⟩ := exec_apply offers able
  rw [Plugin.exec_run, ran]
  refine ⟨_, rfl, dressed.root, Eq.trans ?_ dressed.setting, dressed.collecting⟩
  exact congrArg (fun s => { s with collecting := none }) (Setting.uncounted_time after.toSetting p.name)

theorem exec_pending (extras : ε → Handler (HandlerName ε) σ) {r : Registry (HandlerName ε)}
    {done : List (Registration (HandlerName ε))} (holds : r.Holds done)
    (stand : List.Forall₂ Stands done handlers) (able : Dressable metadata ctx) :
    ∃ after, (flush (HandlerName.perform extras) r).exec ctx = (.ok (), after) ∧
      Dressed handlers ctx after := by
  by_cases none : r.count = 0
  · have empty : handlers = [] := by
      refine List.eq_nil_of_length_eq_zero ?_
      rw [← stand.length_eq, ← holds.count, none]
    subst empty
    refine ⟨ctx, ?_, (editWithin_nothing _ _).symm, rfl, id⟩
    unfold flush
    rw [if_pos none]
    rfl
  · obtain ⟨s, visited, same, went⟩ :=
      walk_root (serves_batch extras holds (builtin_of_stands stand)) ctx.root ctx.toSetting
    have shallow : Shallow (batchEdit done) := shallow_batchEdit done
    have whole : (editAll (batchEdit done) ctx.root).2 = true :=
      (shallow.done able.inside (Nat.lt_succ_self maxDepth)).1
    rw [exec_flush _ r none, went, if_pos whole]
    refine ⟨_, rfl, ?_, ?_, ?_⟩
    · exact congrArg Prod.fst
        (shallow.editWithin_congr (fun n imaged => batchEdit_eq stand imaged) able.imaged)
    · have kept : s.countWalk.uncounted = ctx.toSetting.uncounted := by
        rw [Setting.uncounted_countWalk, same]
      exact congrArg (fun s => { s with collecting := Option.none }) kept
    · intro idle
      have registries := congrArg Setting.collecting same
      exact Eq.trans registries idle

theorem collect_single {r : Registry (HandlerName ε)}
    {action : Action (HandlerName ε) σ (List (Value × Option (HandlerName ε)))}
    (given : p.work.handlers? = some action) {key : String} {name : HandlerName ε} (filled : key ≠ "")
    (offered : ∀ registry, action.exec { ctx with collecting := some registry } =
      (.ok [(.text key, some name)], { ctx with collecting := some registry })) :
    collect p r ctx = (.ok (), r.insertFor p.name key name, { ctx with collecting := none }) := by
  have registered : ∀ r : Registry (HandlerName ε),
      r.register (.text key) (some name) = .ok (r.insert key name) := by
    intro r
    unfold Registry.register
    split <;> simp_all
  have all : ∀ r : Registry (HandlerName ε),
      r.registerAll (Registry.mapping [(.text key, some name)]) = (.ok (), r.insert key name) := by
    intro r
    have alone : Registry.mapping [(Value.text key, some name)] = [(.text key, some name)] := rfl
    rw [alone, Registry.registerAll, registered]
    rfl
  unfold collect
  rw [given]
  dsimp only
  rw [offered]
  dsimp only [Option.getD]
  rw [all]
  rfl

theorem collect_offers (offers : Offers metadata p h) (batched : p.isBatched = true)
    (r : Registry (HandlerName ε)) (known : ctx.metadata = metadata) :
    collect p r ctx = (.ok (), r.insertFor p.name h.key (.builtin h), { ctx with collecting := none }) := by
  obtain ⟨action, given⟩ := Option.isSome_iff_exists.mp batched
  have filled : h.key ≠ "" := by
    cases h with
    | media => exact (by decide : "image" ≠ "")
    | _ => exact (by decide : elementKey ≠ "")
  exact collect_single given filled fun registry =>
    offers.handlers action given { ctx with collecting := some registry } known

theorem collect_offered (offers : Offers metadata p h) (batched : p.isBatched = true)
    {r : Registry (HandlerName ε)} {done : List (Registration (HandlerName ε))} (holds : r.Holds done)
    (known : ctx.metadata = metadata) :
    ∃ filled g, collect p r ctx = (.ok (), filled, { ctx with collecting := none }) ∧ Stands g h ∧
      (p.name ≠ "" → g.owner = p.name) ∧ filled.Holds (done ++ [g]) :=
  ⟨_, _, collect_offers offers batched r known, ⟨rfl, rfl⟩, fun named => owner_of_registrant named rfl,
    Registry.holds_insertFor holds p.name h.key (.builtin h)⟩

theorem exec_phase (extras : ε → Handler (HandlerName ε) σ)
    {plugins : List (Plugin (HandlerName ε) σ)}
    (offers : List.Forall₂ (Offers metadata) plugins more) {r : Registry (HandlerName ε)}
    {done : List (Registration (HandlerName ε))} (holds : r.Holds done)
    (stand : List.Forall₂ Stands done handlers) (able : Dressable metadata ctx) :
    ∃ after, (phase (HandlerName.perform extras) plugins r).exec ctx = (.ok (), after) ∧
      Dressed (handlers ++ more) ctx after := by
  induction offers generalizing r done handlers ctx with
  | nil =>
    rw [List.append_nil]
    exact exec_pending extras holds stand able
  | @cons p h rest others one _ ih =>
    unfold phase
    cases batched : p.isBatched with
    | true =>
      obtain ⟨filled, g, collected, stands, _, held⟩ := collect_offered one batched holds able.metadata
      have idle : Dressable metadata ({ ctx with collecting := none } : Context (HandlerName ε) σ) :=
        ⟨able.metadata, able.inside, able.imaged⟩
      obtain ⟨after, ran, dressed⟩ := ih held (List.rel_append stand (.cons stands .nil)) idle
      refine ⟨after, ?_, ?_⟩
      · rw [if_pos rfl, Action.exec_get_bind, collected]
        exact ran
      · rw [List.append_assoc] at dressed
        exact ⟨dressed.root, dressed.setting, fun _ => dressed.collecting rfl⟩
    | false =>
      obtain ⟨flushed, went, waited⟩ := exec_pending extras holds stand able
      obtain ⟨passed, ran, alone⟩ := exec_plugin one (waited.dressable able)
      have ready := alone.dressable (waited.dressable able)
      obtain ⟨after, rested, dressed⟩ := ih (Registry.holds_clear r) .nil ready
      refine ⟨after, ?_, waited.trans (alone.trans dressed (waited.dressable able)) able⟩
      rw [if_neg (by simp), Action.exec_bind, went]
      dsimp only
      rw [Action.exec_bind, ran]
      exact rested

def capabilityPlugins : List (Plugin (HandlerName ε) σ) := Resolve.inPhase builtin .capability

theorem capabilityPlugins_eq : (capabilityPlugins : List (Plugin (HandlerName ε) σ)) =
    [batched "style-capability" 10 applyStyle do
        let ctx ← get
        return [(.text elementKey, some (.builtin (styleHandler ctx.toSetting)))],
      batched "layout-capability" 20 (applyToElements .layout)
        (return [(.text elementKey, some (.builtin .layout))]),
      batched "media-capability" 100 (applyToElements .media)
        (return [(.text "image", some (.builtin .media))])] := rfl

def dressers (s : Setting (HandlerName ε) σ) : List CapabilityHandler :=
  [styleHandler s, .layout, .media]

theorem styleHandler_congr {s u : Setting (HandlerName ε) σ} (same : s.metadata = u.metadata) :
    styleHandler s = styleHandler u := by
  simp only [styleHandler, Setting.option, same]

theorem offers_style (s : Setting (HandlerName ε) σ) (order : Int) :
    @Offers ε σ s.metadata
      (batched "style-capability" order applyStyle do
        let ctx ← get
        return [(.text elementKey, some (.builtin (styleHandler ctx.toSetting)))])
      (styleHandler s) where
  apply ctx known := by
    show applyStyle.exec ctx = _
    rw [applyStyle, Action.exec_get_bind, styleHandler_congr known]
  handlers action given ctx known := by
    cases given
    rw [← styleHandler_congr known]
    rfl

theorem offers_fixed (name : String) (order : Int) (h : CapabilityHandler) :
    @Offers ε σ metadata
      (batched name order (applyToElements h) (return [(.text h.key, some (.builtin h))])) h where
  apply ctx known := rfl
  handlers action given ctx known := by
    cases given
    rfl

theorem offers_builtin (s : Setting (HandlerName ε) σ) :
    List.Forall₂ (@Offers ε σ s.metadata) capabilityPlugins (dressers s) := by
  rw [capabilityPlugins_eq]
  exact .cons (offers_style s 10)
    (.cons (offers_fixed "layout-capability" 20 .layout)
      (.cons (offers_fixed "media-capability" 100 .media) .nil))

theorem Offers.separated (offers : Offers metadata p h) (separate : String → Bool) :
    Offers metadata (p.separated separate) h := by
  unfold Plugin.separated
  split
  · exact ⟨offers.apply, nofun⟩
  · exact offers

theorem offers_separated (separate : String → Bool) (s : Setting (HandlerName ε) σ) :
    List.Forall₂ (@Offers ε σ s.metadata)
      (capabilityPlugins.map (Plugin.separated separate)) (dressers s) :=
  List.forall₂_map_left_iff.mpr ((offers_builtin s).imp fun _ _ offers => offers.separated separate)

theorem exec_passes (able : Dressable metadata ctx) :
    ∃ after, (do applyStyle; applyToElements .layout; applyToElements .media :
        Action (HandlerName ε) σ Unit).exec ctx = (.ok (), after) ∧
      Dressed (dressers ctx.toSetting) ctx after := by
  cases able.metadata
  cases offers_builtin ctx.toSetting with
  | cons style others =>
    cases others with
    | cons layout last =>
      cases last with
      | cons media _ =>
        obtain ⟨styled, first, one⟩ := exec_apply style able
        have laid := one.dressable able
        obtain ⟨shaped, second, two⟩ := exec_apply layout laid
        obtain ⟨after, third, three⟩ := exec_apply media (two.dressable laid)
        refine ⟨after, ?_, one.trans (two.trans three laid) able⟩
        rw [Action.exec_bind, show applyStyle.exec ctx = (.ok (), styled) from first]
        dsimp only
        rw [Action.exec_bind, show (applyToElements .layout).exec styled = (.ok (), shaped) from second]
        exact third

theorem onElements_dressers (removeStyle removeClass : Bool) {n : Node} (imaged : n.Imaged) :
    onElements [.style removeStyle removeClass, .layout, .media] n = served removeStyle removeClass n := by
  have stand : List.Forall₂ Stands (@handlersDone Empty removeStyle removeClass)
      [.style removeStyle removeClass, .layout, .media] :=
    .cons ⟨rfl, rfl⟩ (.cons ⟨rfl, rfl⟩ (.cons ⟨rfl, rfl⟩ .nil))
  rw [← batchEdit_eq stand imaged, batchEdit_handlers]

end Passes

namespace Passes

theorem converted_imaged {mode : StyleMode} {head : ElementHead} {void : Bool} {kids : List Node}
    (converted : Converted mode head void) : (Node.element head kids).Imaged := by
  cases converted with
  | @wrapper h m mark mapped formats =>
    rw [Node.Imaged, hasSourceTag_head, beq_iff_eq]
    intro image
    have plain : Table.get? Tag.formatting Tag.image = none := by decide
    rw [image, plain] at formats
    cases formats
  | @target h m mapped plain =>
    rw [Node.Imaged, hasSourceTag_head, beq_iff_eq]
    intro image
    have target : (Tag.mapping? Tag.image).all (fun m => m.target == "image") = true := by decide
    rw [← image, mapped] at target
    exact target

theorem root_imaged {mode : StyleMode} {a : Ast} {nodes : List Node}
    (converted : nodesOf mode a = .ok nodes) :
    Everywhere Node.Imaged (Node.root.withChildren nodes) := by
  rw [(convert_ok mode a .nothing 0 converted).1]
  refine everywhere_element.mpr ⟨nofun, ?_⟩
  exact everywhere_becomes (J := fun _ => True) lasting_imaged mode (fun _ _ _ _ => nofun)
    (fun _ _ _ _ _ => trivial) (fun _ _ _ _ => trivial)
    (fun _ _ _ converted _ => converted_imaged converted) a .nothing trivial

end Passes

namespace Transformer
variable {ε σ : Type} {t : Transformer ε σ} {source : String} {shared : σ} {a b : Ast} {m : Node}

theorem structured_dressable
    (fine : (markupStep flagAst >=> t.structuringSteps source) (a, .root) = .ok (b, m)) :
    Within maxDepth m ∧ Everywhere Node.Imaged m := by
  obtain ⟨nodes, merged, listed, _, given, joined, marked, flat⟩ := structuring_ok fine
  obtain ⟨_, rfl⟩ := finished_ok_iff.mp joined
  obtain ⟨_, rfl⟩ := finished_ok_iff.mp marked
  obtain ⟨done, rfl⟩ := finished_ok_iff.mp flat
  have first := lasting_imaged.edited lasting_imaged.mergeChildren (root_imaged given)
  have second := lasting_imaged.edited lasting_imaged.markListsIn first
  exact ⟨within_of_done done, lasting_imaged.edited lasting_imaged.flattenIn second⟩

theorem reaches_separated (separate : String → Bool) (inside : Within maxDepth m)
    (imaged : Everywhere Node.Imaged m) :
    Reaches t source shared
      (Dispatch.phase t.perform (capabilityPlugins.map (Plugin.separated separate)) .empty) b m
      (t.capabilityStep source (b, m)) := by
  intro ctx stage
  have able : Dressable ctx.metadata ctx := ⟨rfl, by rwa [stage.root], by rwa [stage.root]⟩
  obtain ⟨after, ran, dressed⟩ := exec_phase t.extras (offers_separated separate ctx.toSetting)
    Registry.holds_empty .nil able
  have whole : Walk.finished (served t.options.removeAllStyle.isTrue t.options.removeAllClass.isTrue) m =
      .ok (editAll (served t.options.removeAllStyle.isTrue t.options.removeAllClass.isTrue) m).1 :=
    if_pos ((shallow_served _ _).done inside (Nat.lt_succ_self maxDepth)).1
  unfold capabilityStep
  rw [whole]
  refine ⟨after, ran, ?_, ?_⟩
  · rw [← stage.setting, ← Setting.idle_of_none stage.collecting,
      ← Setting.idle_of_none (dressed.collecting stage.collecting)]
    exact dressed.setting
  · rw [dressed.root, stage.root, List.nil_append, dressers, stage.styleHandler]
    exact congrArg Prod.fst ((shallow_onElements _).editWithin_congr
      (fun n imaged => onElements_dressers _ _ imaged) imaged)

theorem inPhase_separated (separate : String → Bool) (plugins : List (Plugin (HandlerName ε) σ))
    (phase : Phase) :
    Resolve.inPhase (plugins.map (Plugin.separated separate)) phase =
      (Resolve.inPhase plugins phase).map (Plugin.separated separate) := by
  unfold Resolve.inPhase
  rw [List.filter_map]
  refine congrArg _ (List.filter_congr fun p _ => ?_)
  rw [Function.comp, Plugin.separated_phase]

theorem unbatched_elsewhere :
    ∀ p ∈ (builtin : List (Plugin (HandlerName ε) σ)), p.phase ≠ .capability → p.work.handlers? = none := by
  simp [builtin, plain, batched]

theorem separated_of_builtin (separate : String → Bool) {plugins : List (Plugin (HandlerName ε) σ)}
    (given : ∀ p ∈ plugins, p ∈ builtin) {phase : Phase} (other : phase ≠ .capability) :
    Resolve.inPhase (plugins.map (Plugin.separated separate)) phase = Resolve.inPhase plugins phase := by
  have alone : ∀ p ∈ Resolve.inPhase plugins phase, p.separated separate = p := by
    intro p member
    obtain ⟨among, here⟩ := List.mem_filter.mp member
    refine Plugin.separated_of_none separate (unbatched_elsewhere p (given p among) ?_)
    rwa [beq_iff_eq.mp here]
  rw [inPhase_separated, List.map_congr_left alone, List.map_id']

theorem separated_elsewhere (separate : String → Bool) {phase : Phase} (other : phase ≠ .capability) :
    Resolve.inPhase ((builtin : List (Plugin (HandlerName ε) σ)).map (Plugin.separated separate)) phase =
      Resolve.inPhase builtin phase := separated_of_builtin separate (fun _ => id) other

theorem complete_separated (separate : String → Bool) (t : Transformer ε σ) (a : Ast) (source : String)
    (shared : σ) :
    (({ t with plugins := builtin.map (Plugin.separated separate) } :
        Transformer ε σ).complete.exec (t.start a source shared)).1 =
      (({ t with plugins := builtin } : Transformer ε σ).complete.exec (t.start a source shared)).1 := by
  have reaches : Reaches { t with plugins := builtin.map (Plugin.separated separate) } source shared
      (Transformer.run { t with plugins := builtin.map (Plugin.separated separate) }) a .root
      (t.passes source (a, .root)) := by
    refine reaches_phases (fun _ => separated_elsewhere separate) fun b m fine => ?_
    obtain ⟨inside, imaged⟩ := structured_dressable fine
    dsimp only
    rw [inPhase_separated]
    exact reaches_separated separate inside imaged
  exact (complete_of_reaches reaches).trans
    (complete_eq { t with plugins := builtin } rfl a source shared).symm

end Transformer
end SemanticMarkup
