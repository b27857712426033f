import SemanticMarkup.Proofs.Attribution.Stretches

namespace SemanticMarkup
open Dispatch

section
variable {κ σ α : Type}

-- What the phase has for itself in a setting: whether a registry is open, and the number of walks.
def Setting.reserved (s : Setting κ σ) : Bool × Option Nat :=
  (s.collecting.isSome, s.metrics.map Metrics.walks)

-- Things that plugins do, without a hand on what the phase has for itself.
def Action.Modest (action : Action κ σ α) : Prop :=
  ∀ ctx, (action.exec ctx).2.reserved = ctx.reserved

def Handler.Modest (handler : Handler κ σ) : Prop :=
  ∀ n s, (handler.run.run (n, s)).2.2.reserved = s.reserved

structure Plugin.Modest (p : Plugin κ σ) : Prop where
  apply : p.work.apply.Modest
  handlers : ∀ action, p.work.handlers? = some action → action.Modest

namespace Setting

theorem closed_of_reserved {s : Setting κ σ} {walks : Option Nat}
    (same : s.reserved = (false, walks)) : s.collecting = none :=
  Option.isNone_iff_eq_none.mp (Option.isSome_eq_false_iff.mp (congrArg Prod.fst same))

theorem reserved_time (s : Setting κ σ) (name : String) : (s.time name).reserved = s.reserved := by
  have walks : Metrics.walks ∘ (Metrics.time · name) = Metrics.walks := by
    funext m
    simp only [Function.comp, Metrics.time]
    split <;> rfl
  simp only [reserved, time, Option.map_map, walks]

theorem reserved_countWalk {s : Setting κ σ} {walks : Option Nat}
    (same : s.reserved = (false, walks)) : s.countWalk.reserved = (false, walks.map (· + 1)) := by
  obtain ⟨closed, rfl⟩ := Prod.mk.inj same
  refine Prod.ext closed ?_
  simp only [reserved, countWalk, Option.map_map]
  rfl

end Setting
end

section
variable {ε σ : Type} {perform : HandlerName ε → Handler (HandlerName ε) σ}
  {p : Plugin (HandlerName ε) σ} {plugins batch : List (Plugin (HandlerName ε) σ)}
  {walks : Option Nat} {s : Setting (SignedName ε σ) (Noted ε σ)}
  {a b : Watched ε σ} {r : Registry (SignedName ε σ)}

-- No registry is open, there have been so many walks, and a plugin that was called for something
-- else than its handlers has found no registry open, and left none.
structure Undisturbed (walks : Option Nat) (s : Setting (SignedName ε σ) (Noted ε σ)) : Prop where
  reserved : s.reserved = (false, walks)
  calls : ∀ e ∈ s.shared.2, e.point ≠ .registration →
    e.given.collecting = none ∧ e.left.collecting = none

theorem Setting.reserved_plain (s : Setting (SignedName ε σ) (Noted ε σ)) :
    s.plain.reserved = s.reserved :=
  Prod.ext Option.isSome_map rfl

theorem Setting.reserved_noting (s : Setting (SignedName ε σ) (Noted ε σ))
    (after : Setting (HandlerName ε) σ) (e : Event (HandlerName ε) σ) :
    (s.noting after e).reserved = after.reserved :=
  Prod.ext Option.isSome_map rfl

namespace Undisturbed

theorem time (undisturbed : Undisturbed walks s) (name : String) : Undisturbed walks (s.time name) :=
  ⟨(Setting.reserved_time s name).trans undisturbed.reserved, undisturbed.calls⟩

theorem called (undisturbed : Undisturbed walks s) {after : Setting (HandlerName ε) σ}
    {e : Event (HandlerName ε) σ} (modest : after.reserved = s.plain.reserved)
    (given : e.given.collecting = s.plain.collecting) (left : e.left.collecting = after.collecting) :
    Undisturbed walks (s.noting after e) := by
  have before : s.plain.reserved = (false, walks) :=
    (Setting.reserved_plain s).trans undisturbed.reserved
  refine ⟨(Setting.reserved_noting s after e).trans (modest.trans before), ?_⟩
  intro called among other
  rcases List.mem_append.mp among with earlier | last
  · exact undisturbed.calls called earlier other
  · rw [List.mem_singleton.mp last]
    exact ⟨given.trans (Setting.closed_of_reserved before),
      left.trans (Setting.closed_of_reserved (modest.trans before))⟩

theorem ran (undisturbed : Undisturbed walks a.toSetting) (modest : p.Modest) :
    Undisturbed walks (p.noted.run.exec a).2.toSetting := by
  rcases ran : p.work.apply.exec a.plain with ⟨result, after⟩
  have kept := modest.apply a.plain
  rw [ran] at kept
  have noted : Undisturbed walks
      (a.toSetting.noting after.toSetting ⟨p, .apply, a.plain, after, raisedBy result⟩) :=
    undisturbed.called kept rfl rfl
  have told : p.noted.work.apply.exec a = _ := Action.exec_noted p .apply id ran
  rw [Plugin.exec_run, told]
  cases result with
  | error f => exact noted
  | ok _ => exact noted.time p.name

theorem collected (undisturbed : Undisturbed walks a.toSetting) (modest : p.Modest) :
    Undisturbed walks (collect p.noted r a).2.2.toSetting := by
  cases given : p.work.handlers? with
  | none =>
    unfold collect
    rw [handlers_noted, given]
    exact undisturbed
  | some action =>
    rcases ran : action.exec (asking p r a).plain with ⟨result, after⟩
    have kept := modest.handlers action given (asking p r a).plain
    rw [ran] at kept
    rw [collect_noted given ran]
    refine ⟨Prod.ext rfl ?_, fun e among other => ?_⟩
    · have before : (asking p r a).plain.reserved.2 = walks := congrArg Prod.snd undisturbed.reserved
      exact (congrArg Prod.snd kept).trans before
    · rcases List.mem_append.mp among with earlier | last
      · exact undisturbed.calls e earlier other
      · exact absurd (congrArg Event.point (List.mem_singleton.mp last)) other

theorem gathered (undisturbed : Undisturbed walks a.toSetting) (modest : ∀ p ∈ batch, p.Modest) :
    Undisturbed walks ((gather (batch.map Plugin.noted) r).exec a).2.toSetting := by
  induction batch generalizing r a with
  | nil => exact undisturbed
  | cons p rest ih =>
    have kept := @collected _ _ _ _ _ r undisturbed (modest p List.mem_cons_self)
    rw [List.map_cons]
    rcases collected : collect p.noted r a with ⟨result, filled, after⟩
    rw [collected] at kept
    cases result with
    | error f =>
      rw [exec_gather_error collected]
      exact kept
    | ok _ =>
      rw [exec_gather_ok collected]
      exact ih kept fun q later => modest q (List.mem_cons_of_mem _ later)

theorem walked (undisturbed : Undisturbed walks a.toSetting) (modest : ∀ name, (perform name).Modest)
    {result : Except Fault Nat} (walked : Walked perform batch r a result b) :
    Undisturbed walks b.toSetting := by
  have kept : Undisturbed walks (walk (noting perform) r a.root [] a.toSetting 0).2.2 := by
    refine walk_noted_keeps (fun s name holds => holds.time name) ?_ walked.owned a.root undisturbed
    intro p member name n s holds answer left after ran
    have same := modest name n s.plain
    rw [ran] at same
    exact holds.called same rfl rfl
  have ran := walked.ran
  rw [exec_run (noting perform) r walked.some] at ran
  cases ran
  exact kept

theorem counted (undisturbed : Undisturbed walks s) : Undisturbed (walks.map (· + 1)) s.countWalk :=
  ⟨Setting.reserved_countWalk undisturbed.reserved, undisturbed.calls⟩

theorem performed {stretch : Stretch (HandlerName ε) σ} {done : Nat} {result : Except Fault Unit}
    (performs : Performs perform stretch a done result b) (modest : ∀ p ∈ stretch.plugins, p.Modest)
    (handlers : ∀ name, (perform name).Modest) (undisturbed : Undisturbed walks a.toSetting) :
    Undisturbed (walks.map (· + done)) b.toSetting := by
  have same : walks.map (· + 0) = walks := Option.map_id'
  have asked : ∀ {batch begun result b}, Asked batch begun a result b → (∀ p ∈ batch, p.Modest) →
      Undisturbed walks b.toSetting := by
    intro batch begun result b asked modest
    have kept := @gathered _ _ _ _ _ .empty undisturbed modest
    rwa [asked.gathered] at kept
  cases performs with
  | alone ran called plugin point =>
    have kept := undisturbed.ran (modest _ List.mem_cons_self)
    rwa [ran, ← same] at kept
  | refused first asking =>
    rw [same]
    exact asked asking modest
  | still asking none =>
    rw [same]
    exact asked asking modest
  | walked asking walked => exact ((asked asking modest).walked handlers walked).counted
  | broken asking walked =>
    rw [same]
    exact (asked asking modest).walked handlers walked

theorem performedAll {stretches : List (Stretch (HandlerName ε) σ)} {done : Nat}
    {result : Except Fault Unit} (all : PerformsAll perform stretches a done result b)
    (modest : ∀ p ∈ stretches.flatMap Stretch.plugins, p.Modest)
    (handlers : ∀ name, (perform name).Modest) (undisturbed : Undisturbed walks a.toSetting) :
    Undisturbed (walks.map (· + done)) b.toSetting := by
  induction all generalizing walks with
  | done a =>
    rw [show walks.map (· + 0) = walks from Option.map_id']
    exact undisturbed
  | @next s rest a b c one more result first others ih =>
    rw [List.flatMap_cons] at modest
    have kept := undisturbed.performed first
      (fun p member => modest p (List.mem_append_left _ member)) handlers
    have whole := ih (fun p member => modest p (List.mem_append_right _ member)) kept
    rwa [Option.map_map, show (· + more) ∘ (· + one) = (· + (one + more)) from
      funext fun n => Nat.add_assoc n one more] at whole
  | failed first =>
    rw [List.flatMap_cons] at modest
    exact undisturbed.performed first
      (fun p member => modest p (List.mem_append_left _ member)) handlers

end Undisturbed

end

namespace Passes
variable {ε σ : Type} {p : Plugin (HandlerName ε) σ}

theorem modest_of_offers
    (offers : ∀ ctx : Context (HandlerName ε) σ, ∃ h, Offers ctx.metadata p h) : p.Modest where
  apply ctx := by
    obtain ⟨h, offers⟩ := offers ctx
    have edited : (applyToElements h).exec ctx = _ := Action.exec_editNodes h.onElement ctx
    rw [offers.apply ctx rfl, edited]
  handlers action given ctx := by
    obtain ⟨h, offers⟩ := offers ctx
    rw [offers.handlers action given ctx rfl]

theorem capabilityPlugins_modest :
    ∀ p ∈ (capabilityPlugins : List (Plugin (HandlerName ε) σ)), p.Modest := by
  intro p member
  rw [capabilityPlugins_eq] at member
  simp only [List.mem_cons, List.not_mem_nil, or_false] at member
  rcases member with rfl | rfl | rfl
  · exact modest_of_offers fun ctx => ⟨_, offers_style ctx.toSetting 10⟩
  · exact modest_of_offers fun ctx => ⟨_, offers_fixed "layout-capability" 20 .layout⟩
  · exact modest_of_offers fun ctx => ⟨_, offers_fixed "media-capability" 100 .media⟩

theorem perform_modest {extras : ε → Handler (HandlerName ε) σ} (others : ∀ e, (extras e).Modest)
    (name : HandlerName ε) : (HandlerName.perform extras name).Modest := by
  cases name with
  | extra e => exact others e
  | builtin h =>
    intro n s
    rw [HandlerName.perform]
    cases element : n.isElement with
    | true => rw [perform_run h element]
    | false =>
      cases h with
      | style removeStyle removeClass =>
        show ((ite ((!n.isElement) = true) _ _ : StateM (Node × Setting (HandlerName ε) σ) _)
          (n, s)).2.2.reserved = _
        rw [if_pos (by simp [element])]
        rfl
      | _ => rfl

end Passes

section
variable {σ : Type}

theorem Action.register_closed {κ : Type} {ctx : Context κ σ} (closed : ctx.collecting = none)
    (key : Value) (handler : Option κ) :
    (Action.register key handler).exec ctx = (.error Setting.notCollecting, ctx) := by
  unfold Action.register Action.ofSetting
  rw [Action.exec_get_bind]
  simp only [Setting.register, closed]
  rfl

end

namespace Dispatch
variable {ε σ : Type} {plugins : List (Plugin (HandlerName ε) σ)} {ctx : Context (HandlerName ε) σ}

-- The capability phase, with and without its calls written down, goes through its plugins by
-- stretches: one walk for all that follow one another and have handlers, if they have registered
-- any, and a call for each of the others. Where no plugin has a hand on them, the walks that got
-- done are counted, and no registry is open but to a plugin that is asked for its handlers; where
-- none is open, registering is refused and changes nothing.
theorem phase_performs (perform : HandlerName ε → Handler (HandlerName ε) σ)
    (placed : ∀ p ∈ plugins, p.phase = .capability) (sound : ∀ p ∈ plugins, p.Sound)
    (idle : ctx.collecting = none) :
    ∃ stretches walks result after, Stretch.Divides plugins stretches ∧
      (phase (noting perform) (plugins.map Plugin.noted) .empty).exec ctx.watched = (result, after) ∧
      (phase perform plugins .empty).exec ctx = (result, after.plain) ∧
      PerformsAll perform stretches ctx.watched walks result after ∧
      ((∀ p ∈ plugins, p.Modest) → (∀ name, (perform name).Modest) →
        after.plain.metrics.map Metrics.walks = ctx.metrics.map (fun m => m.walks + walks) ∧
        after.plain.collecting = none ∧
        ∀ e ∈ after.shared.2, e.point ≠ .registration →
          e.given.collecting = none ∧ e.left.collecting = none) ∧
      ∀ now : Context (HandlerName ε) σ, now.collecting = none → ∀ key handler,
        (Action.register key handler).exec now = (.error Setting.notCollecting, now) := by
  have divides := Stretch.divides_divide plugins
  have fit : ∀ p ∈ (Stretch.divide plugins).flatMap Stretch.plugins,
      p.phase = .capability ∧ p.Sound := by
    rw [divides.whole]
    exact fun p member => ⟨placed p member, sound p member⟩
  obtain ⟨walks, result, after, ran, all⟩ := @all_perform _ _ perform _ divides.even fit ctx.watched
  have cut := divides.map (f := Plugin.noted) fun p => Option.isSome_map
  have noted := @phase_stretches _ _ (noting perform) _ _ cut ctx.watched
  rw [ran] at noted
  obtain ⟨_, _, _, tracked, plain, _⟩ := @phase_tracks _ _ plugins perform .empty plugins
    (fun p member => member) placed sound Registry.owned_empty ctx.watched
  rw [noted] at tracked
  cases tracked
  rw [Context.plain_watched idle] at plain
  refine ⟨_, walks, result, after, divides, noted, plain, all, fun modest handlers => ?_,
    fun now closed key handler => Action.register_closed closed key handler⟩
  have before : Undisturbed (ctx.metrics.map Metrics.walks) ctx.watched.toSetting :=
    ⟨rfl, fun e none => absurd none List.not_mem_nil⟩
  have kept := before.performedAll all (by rwa [divides.whole]) handlers
  have counted := (Setting.reserved_plain after.toSetting).trans kept.reserved
  refine ⟨?_, Setting.closed_of_reserved counted, kept.calls⟩
  have walked := congrArg Prod.snd counted
  rwa [Option.map_map] at walked

def idly (_ : HandlerName Unit) : Handler (HandlerName Unit) Unit :=
  (pure none : Serving (HandlerName Unit) Unit (Option Node))

theorem idly_modest (name : HandlerName Unit) : (idly name).Modest := fun _ _ => rfl

def heedful : Plugin (HandlerName Unit) Unit :=
  Passes.batched "heedful" 10 (pure ()) (return [(.text textKey, some (.extra ()))])

def between : Plugin (HandlerName Unit) Unit := Passes.plain "between" .capability 20 (pure ())

def mute : Plugin (HandlerName Unit) Unit := Passes.batched "mute" 30 (pure ()) (return [])

def threesome : List (Plugin (HandlerName Unit) Unit) := [heedful, between, mute]

theorem threesome_fit :
    ∀ p ∈ threesome, p.phase = .capability ∧ p.Sound ∧ p.Modest := by
  intro p member
  simp only [threesome, List.mem_cons, List.not_mem_nil, or_false] at member
  rcases member with rfl | rfl | rfl
  · refine ⟨rfl, Passes.sound_batched (by decide) (Action.registers_of_kept fun _ => rfl),
      fun _ => rfl, ?_⟩
    rintro action ⟨⟩ ctx
    rfl
  · exact ⟨rfl, Passes.sound_plain (by decide), fun _ => rfl, nofun⟩
  · refine ⟨rfl, Passes.sound_batched (by decide) (Action.registers_of_kept fun _ => rfl),
      fun _ => rfl, ?_⟩
    rintro action ⟨⟩ ctx
    rfl

def standing (root : Node) : Context (HandlerName Unit) Unit :=
  ⟨⟨.node .root [], [], .null, some .empty, none, ()⟩, root⟩

def heeded : Registry (HandlerName Unit) :=
  ⟨[(textKey, [⟨0, "heedful", .extra ()⟩])], 1, none⟩

def leaf : Node := .text ⟨.text "x", .null, .null, .null, .null⟩

theorem threesome_ran :
    ∃ after, (phase idly threesome .empty).exec (standing leaf) = (.ok (), after) ∧
      after.metrics.map Metrics.walks = some 1 := by
  have served : serve idly (heeded.forNode leaf) (leaf, (standing leaf).toSetting) =
      (.ok (), leaf, (standing leaf).toSetting.time "heedful") := rfl
  have walked : walk idly heeded leaf [] (standing leaf).toSetting 0 = _ :=
    walk_finished 0 (by decide) served rfl rfl
  have flushed : (flush idly heeded).exec (standing leaf) = _ :=
    exec_flush idly heeded (by decide) (standing leaf)
  rw [show (standing leaf).root = leaf from rfl, walked] at flushed
  have first : (phase idly threesome .empty).exec (standing leaf) =
      (flush idly heeded >>= fun _ => between.run >>= fun _ => phase idly [mute] heeded.clear).exec
        (standing leaf) := rfl
  rw [first, Action.exec_bind, flushed]
  exact ⟨_, rfl, rfl⟩

theorem threesome_performs :
    (∀ p ∈ threesome, p.phase = .capability) ∧ (∀ p ∈ threesome, p.Sound) ∧
      (standing leaf).collecting = none ∧
      ∃ stretches after, Stretch.Divides threesome stretches ∧
        (phase (noting idly) (threesome.map Plugin.noted) .empty).exec (standing leaf).watched =
          (.ok (), after) ∧
        PerformsAll idly stretches (standing leaf).watched 1 (.ok ()) after ∧
        after.plain.metrics.map Metrics.walks = some 1 ∧ after.plain.collecting = none := by
  have placed : ∀ p ∈ threesome, p.phase = .capability := fun p member => (threesome_fit p member).1
  have sound : ∀ p ∈ threesome, p.Sound := fun p member => (threesome_fit p member).2.1
  refine ⟨placed, sound, rfl, ?_⟩
  obtain ⟨stretches, walks, result, after, divides, noted, plain, all, kept, _⟩ :=
    phase_performs idly placed sound (show (standing leaf).collecting = none from rfl)
  obtain ⟨counted, closed, _⟩ := kept (fun p member => (threesome_fit p member).2.2) idly_modest
  obtain ⟨ended, ran, walked⟩ := threesome_ran
  rw [ran] at plain
  cases plain
  have once : some 1 = some (0 + walks) := walked.symm.trans counted
  rw [Nat.zero_add] at once
  cases once
  exact ⟨stretches, after, divides, noted, all, walked, closed⟩

def pile : Nat → Node
  | 0 => leaf
  | n + 1 => Node.root.withChildren [pile n]

theorem le_of_within_pile {n levels : Nat} (inside : Walk.Within levels (pile n)) : n ≤ levels := by
  induction n generalizing levels with
  | zero => exact Nat.zero_le levels
  | succ n ih =>
    obtain ⟨fewer, rfl, below⟩ := inside.child (List.mem_singleton_self (pile n))
    exact Nat.succ_le_succ (ih below)

theorem serve_idly (entries : List (Entry (HandlerName Unit))) (n : Node)
    (s : Setting (HandlerName Unit) Unit) :
    ∃ after, serve idly entries (n, s) = (.ok (), n, after) ∧ after.uncounted = s.uncounted := by
  induction entries generalizing s with
  | nil => exact ⟨s, rfl, rfl⟩
  | cons e rest ih =>
    obtain ⟨after, served, same⟩ := ih (s.time e.owner)
    exact ⟨after, served, same.trans (Setting.uncounted_time s e.owner)⟩

theorem walk_idly {root : Node} (deep : ¬Walk.Within maxDepth root) (r : Registry (HandlerName Unit))
    (s : Setting (HandlerName Unit) Unit) :
    (walk idly r root [] s 0).1 = .error (.tooDeep depthLimit "capability" s.source none) := by
  have serves : Serves idly r id := fun n s => serve_idly (r.forNode n) n s
  obtain ⟨_, _, _, walked⟩ := walk_root serves root s
  have unfinished : (Walk.editAll id root).2 = false := by
    refine Bool.eq_false_iff.mpr fun done => deep (Walk.within_of_edited (fun _ => rfl) done)
  rw [walked, unfinished]
  rfl

def signedly : Registry (SignedName Unit Unit) :=
  ⟨[(textKey, [⟨0, "heedful", .sign heedful (.extra ())⟩])], 1, none⟩

def asked (root : Node) : Context (SignedName Unit Unit) (Noted Unit Unit) :=
  (collect heedful.noted .empty (standing root).watched).2.2

structure Uneventful (s : Setting (SignedName Unit Unit) (Noted Unit Unit)) : Prop where
  undisturbed : Undisturbed (some 0) s
  raised : ∀ e ∈ s.shared.2, e.raised = none

theorem uneventful_asked (root : Node) : Uneventful (asked root).toSetting where
  undisturbed := by
    have before : Undisturbed (some 0) (standing root).watched.toSetting :=
      ⟨rfl, fun e none => absurd none List.not_mem_nil⟩
    exact before.collected (threesome_fit heedful List.mem_cons_self).2.2
  raised e member := by
    obtain ⟨_, only⟩ : ∃ first, (asked root).shared.2 =
      [⟨heedful, .registration, first, first, none⟩] := ⟨_, rfl⟩
    rw [only] at member
    rw [List.mem_singleton.mp member]

theorem uneventful_walk (owned : signedly.Owned [heedful]) (root : Node) :
    Uneventful (walk (noting idly) signedly root [] (asked root).toSetting 0).2.2 := by
  refine walk_noted_keeps ?_ ?_ owned root (uneventful_asked root)
  · exact fun s name holds => ⟨holds.undisturbed.time name, holds.raised⟩
  · rintro p member name n s holds answer left after ⟨⟩
    refine ⟨holds.undisturbed.called rfl rfl rfl, fun e among => ?_⟩
    rcases List.mem_append.mp among with earlier | last
    · exact holds.raised e earlier
    · rw [List.mem_singleton.mp last]
      rfl

theorem heedful_unfinished {root : Node} (deep : ¬Walk.Within maxDepth root) :
    ∃ after, (phase (noting idly) [heedful.noted] .empty).exec (standing root).watched =
        (.error (.tooDeep depthLimit "capability" .null none), after) ∧
      Uneventful after.toSetting := by
  have collected : collect heedful.noted .empty (standing root).watched =
    (.ok (), signedly, asked root) := rfl
  have phased : (phase (noting idly) [heedful.noted] .empty).exec (standing root).watched =
      (flush (noting idly) signedly).exec (asked root) := rfl
  have owned : signedly.Owned [heedful] := by
    obtain ⟨_, _, _, _, same, _, owned, _⟩ := collect_logged Registry.owned_empty
      List.mem_cons_self rfl (threesome_fit heedful List.mem_cons_self).2.1 (standing root).watched
    cases collected.symm.trans same
    exact owned
  obtain ⟨result, left, after, _, noted, plain, _⟩ :=
    @walk_logged _ _ _ idly _ owned root [] (asked root).toSetting 0
  have failed := walk_idly deep (signedly.map HandlerName.unsigned) (asked root).toSetting.plain
  have kept := uneventful_walk owned root
  rw [plain] at failed
  rw [noted] at kept
  have flushed := exec_flush (noting idly) signedly (by decide) (asked root)
  rw [show (asked root).root = root from rfl, noted, show result = _ from failed] at flushed
  exact ⟨_, phased.trans flushed, kept⟩

theorem deepPile_unfinished :
    (∀ p ∈ [heedful], p.phase = .capability) ∧ (∀ p ∈ [heedful], p.Sound) ∧
      Stretch.Divides [heedful] [.shared [heedful]] ∧
      (gather [heedful] .empty).exec (standing (pile 513)) = (.ok heeded, standing (pile 513)) ∧
      ∃ after, (phase (noting idly) [heedful.noted] .empty).exec (standing (pile 513)).watched =
          (.error (.tooDeep depthLimit "capability" .null none), after) ∧
        (∀ e ∈ after.shared.2, e.raised = none) ∧
        after.plain.metrics.map Metrics.walks = some 0 := by
  have fit := threesome_fit heedful List.mem_cons_self
  have deep : ¬Walk.Within maxDepth (pile 513) :=
    fun inside => absurd (le_of_within_pile inside) (by decide)
  obtain ⟨after, failed, uneventful⟩ := heedful_unfinished deep
  refine ⟨fun p member => ?_, fun p member => ?_, Stretch.divides_divide [heedful], rfl, after,
    failed, uneventful.raised, congrArg Prod.snd uneventful.undisturbed.reserved⟩
  · rw [List.mem_singleton.mp member]
    exact fit.1
  · rw [List.mem_singleton.mp member]
    exact fit.2.1

end Dispatch

end SemanticMarkup
