import SemanticMarkup.Proofs.Attribution.Signatures

namespace SemanticMarkup
open Dispatch
variable {ε σ α β : Type} {plugins : List (Plugin (HandlerName ε) σ)} {p : Plugin (HandlerName ε) σ}

theorem Setting.plain_noting (s : Setting (SignedName ε σ) (Noted ε σ))
    (after : Setting (HandlerName ε) σ) (e : Event (HandlerName ε) σ) :
    (s.noting after e).plain = after := by
  unfold plain noting
  dsimp only
  rw [Option.map_map]
  have same : Registry.map HandlerName.unsigned ∘
      Registry.signed e.plugin (s.collecting.getD .empty) = id := by
    funext r
    exact Registry.map_signed e.plugin _ r
  rw [same, Option.map_id]
  rfl

theorem Action.exec_noted (p : Plugin (HandlerName ε) σ) (point : EntryPoint (HandlerName ε))
    (f : α → β) {action : Action (HandlerName ε) σ α} {ctx : Context (SignedName ε σ) (Noted ε σ)}
    {result : Except Fault α} {after : Context (HandlerName ε) σ}
    (ran : action.exec ctx.plain = (result, after)) :
    (action.noted p point f).exec ctx =
      (result.map f, (ctx.toSetting.noting after.toSetting
        ⟨p, point, ctx.plain, after, raisedBy result⟩).withRoot after.root) := by
  have told : (action.noted p point f).exec ctx =
      let out := action.exec ctx.plain
      (out.1.map f, (ctx.toSetting.noting out.2.toSetting
        ⟨p, point, ctx.plain, out.2, raisedBy out.1⟩).withRoot out.2.root) := rfl
  rw [told, ran]

-- Some calls, as a run has written them down, and how it has ended.
structure Logged (plugins : List (Plugin (HandlerName ε) σ))
    (before : Context (SignedName ε σ) (Noted ε σ)) (events : List (Event (HandlerName ε) σ))
    (result : Except Fault α) (after : Context (SignedName ε σ) (Noted ε σ)) : Prop where
  log : after.shared.2 = before.shared.2 ++ events
  follows : Follows before.plain events after.plain
  aborts : Aborts plugins events result after.plain

namespace Logged
variable {a b c : Context (SignedName ε σ) (Noted ε σ)} {events more : List (Event (HandlerName ε) σ)}
  {result : Except Fault α} {e : Event (HandlerName ε) σ}

theorem still (log : b.shared.2 = a.shared.2) (alike : a.plain.Alike b.plain) :
    Logged plugins a [] result b :=
  ⟨by rw [log, List.append_nil], .still alike, fun earlier e later g none => by simp at none⟩

theorem trans {value : β} (first : Logged plugins a events (.ok value) b)
    (second : Logged plugins b more result c) : Logged plugins a (events ++ more) result c := by
  refine ⟨by rw [second.log, first.log, List.append_assoc], first.follows.trans second.follows, ?_⟩
  intro earlier e later g split raised
  rcases List.append_eq_append_iff.mp split with ⟨between, rfl, here⟩ | ⟨between, here, rest⟩
  · exact second.aborts between e later g here raised
  · cases between with
    | nil =>
      rw [List.nil_append] at rest
      exact second.aborts [] e later g rest.symm raised
    | cons head tail =>
      cases rest
      obtain ⟨_, _, _, failed⟩ := first.aborts earlier e tail g here raised
      cases failed

theorem error {f : Fault} (told : Logged plugins a events (.error f : Except Fault α) b) :
    Logged plugins a events (.error f : Except Fault β) b := by
  refine ⟨told.log, told.follows, fun earlier e later g split raised => ?_⟩
  obtain ⟨last, member, counted, failed⟩ := told.aborts earlier e later g split raised
  cases failed
  exact ⟨last, member, counted, rfl⟩

theorem done {value : α} {other : β} (told : Logged plugins a events (.ok value) b) :
    Logged plugins a events (.ok other) b := by
  have both := told.trans (@still ε σ β plugins b b (.ok other) rfl (.refl _))
  rwa [List.append_nil] at both

theorem one (log : b.shared.2 = a.shared.2 ++ [e]) (moves : e.Moves a.plain b.plain)
    (aborts : ∀ g, e.raised = some g →
      e.plugin ∈ plugins ∧ b.metrics = e.left.metrics ∧
        result = .error (Plugin.blame e.plugin.name e.plugin.phase.name b.source g)) :
    Logged plugins a [e] result b := by
  refine ⟨log, .call moves (.still (.refl _)), ?_⟩
  intro earlier called later g split raised
  cases earlier with
  | nil =>
    cases split
    exact ⟨rfl, aborts g raised⟩
  | cons head tail => simp at split

end Logged

namespace Dispatch
variable {perform : HandlerName ε → Handler (HandlerName ε) σ} {r : Registry (SignedName ε σ)}

def noting (perform : HandlerName ε → Handler (HandlerName ε) σ) :
    SignedName ε σ → Handler (SignedName ε σ) (Noted ε σ) :=
  HandlerName.perform (Signed.noted perform)

theorem run_signed (p : Plugin (HandlerName ε) σ) {name : HandlerName ε} {n left : Node}
    {s : Setting (SignedName ε σ) (Noted ε σ)} {after : Setting (HandlerName ε) σ}
    {answer : Except Fault (Option Node)}
    (ran : (perform name).run.run (n, s.plain) = (answer, left, after)) :
    (noting perform (.sign p name)).run.run (n, s) =
      (answer, left, s.noting after ⟨p, .handler name, s.plain.withRoot n,
        after.withRoot (inPlace answer left), raisedBy answer⟩) := by
  have told : (noting perform (.sign p name)).run.run (n, s) =
      let out := (perform name).run.run (n, s.plain)
      (out.1, out.2.1, s.noting out.2.2 ⟨p, .handler name, s.plain.withRoot n,
        out.2.2.withRoot (inPlace out.1 out.2.1), raisedBy out.1⟩) := rfl
  rw [told, ran]

theorem idle_time (s : Setting (HandlerName ε) σ) (name : String) : (s.time name).idle = s.idle := by
  rw [Setting.idle, Setting.uncounted_time]
  rfl

theorem handler_logged {entry : Entry (SignedName ε σ)} (owned : entry.Owned plugins) (n : Node)
    (s : Setting (SignedName ε σ) (Noted ε σ)) (frames : List Frame) :
    ∃ answer left after event,
      (noting perform entry.handler).run.run (n, s) = (answer, left, after) ∧
      (perform entry.handler.unsigned).run.run (n, s.plain) = (answer, left, after.plain) ∧
      Logged plugins ((s.withRoot n).within frames) [event]
        ((answer.map fun _ => ()).mapError (Plugin.blame entry.owner "capability" after.source))
        ((after.withRoot (inPlace answer left)).within frames) := by
  obtain ⟨p, member, placed, owner, name, signature⟩ := owned
  rw [signature, owner]
  rcases ran : (perform name).run.run (n, s.plain) with ⟨answer, left, after⟩
  have plain := Setting.plain_noting s after ⟨p, .handler name, s.plain.withRoot n,
    after.withRoot (inPlace answer left), raisedBy answer⟩
  refine ⟨answer, left, _, _, run_signed p ran, ?_, .one rfl ?_ fun g raised => ?_⟩
  · rw [plain]
    exact ran
  · exact ⟨frames, .inr ⟨name, rfl⟩, .refl _, rfl, congrArg Setting.idle plain⟩
  · cases answer with
    | ok answer => cases raised
    | error f =>
      cases raised
      refine ⟨member, rfl, ?_⟩
      show _ = Except.error (Plugin.blame p.name p.phase.name _ g)
      rw [placed]
      rfl

theorem serve_logged {entries : List (Entry (SignedName ε σ))} (owned : ∀ e ∈ entries, e.Owned plugins)
    (n : Node) (s : Setting (SignedName ε σ) (Noted ε σ)) (frames : List Frame) :
    ∃ result left after events,
      serve (noting perform) entries (n, s) = (result, left, after) ∧
      serve perform (entries.map (Entry.map HandlerName.unsigned)) (n, s.plain) =
        (result, left, after.plain) ∧
      Logged plugins ((s.withRoot n).within frames) events result ((after.withRoot left).within frames) := by
  induction entries generalizing n s with
  | nil => exact ⟨.ok (), n, s, [], rfl, rfl, .still rfl (.refl _)⟩
  | cons entry rest ih =>
    obtain ⟨answer, left, after, event, noted, plain, told⟩ :=
      @handler_logged _ _ _ perform _ (owned entry List.mem_cons_self) n s frames
    rw [List.map_cons, serve, serve, noted, Entry.map, plain]
    cases answer with
    | error f => exact ⟨_, _, _, [event], rfl, rfl, told⟩
    | ok answer =>
      have timed : Logged plugins ((after.withRoot (answer.getD left)).within frames) [] (.ok ())
          (((after.time entry.owner).withRoot (answer.getD left)).within frames) :=
        .still rfl ⟨rfl, (idle_time after.plain entry.owner).symm⟩
      obtain ⟨result, last, ended, events, served, plainly, others⟩ :=
        ih (fun e among => owned e (List.mem_cons_of_mem _ among)) (answer.getD left)
          (after.time entry.owner)
      refine ⟨result, last, ended, event :: events, ?_, ?_, (told.trans timed).trans others⟩
      · cases answer <;> exact served
      · cases answer <;> exact plainly

theorem plugAll_advance (n : Node) (frames : List Frame) :
    match advance n frames with
    | .visit next onward => plugAll onward next = plugAll frames n
    | .finished root => root = plugAll frames n := by
  induction frames generalizing n with
  | nil => rfl
  | cons f frames ih =>
    rw [advance]
    cases waits : f.waiting with
    | nil => exact ih (f.plug n)
    | cons next rest =>
      show plugAll frames (Frame.plug _ next) = plugAll frames (f.plug n)
      simp [Frame.plug, waits]

theorem walk_logged (owned : r.Owned plugins) (n : Node) (frames : List Frame)
    (s : Setting (SignedName ε σ) (Noted ε σ)) (visited : Nat) :
    ∃ result root after events,
      walk (noting perform) r n frames s visited = (result, root, after) ∧
      walk perform (r.map HandlerName.unsigned) n frames s.plain visited = (result, root, after.plain) ∧
      Logged plugins ((s.withRoot n).within frames) events result (after.withRoot root) := by
  have serves := fun n s => @serve_logged _ _ _ perform _ (owned.forNode n) n s
  simp only [← Registry.forNode_map] at serves
  -- The tree in the middle of a walk is the node with its frames around it, so that what a handler does
  -- to the node is done to the tree.
  induction n, frames, s, visited using walk.induct (noting perform) r with
  | case1 n frames s visited deep =>
    refine ⟨.error (.tooDeep depthLimit "capability" s.source none), plugAll frames n, s, [],
      ?_, ?_, .still rfl (.refl _)⟩
    · rw [walk, dif_pos deep]
    · rw [walk, dif_pos deep]
      rfl
  | case2 n frames s visited shallow f left after served =>
    obtain ⟨_, _, _, events, told, plain, calls⟩ := serves n s frames
    cases served.symm.trans told
    exact ⟨.error f, plugAll frames left, after, events, walk_of_error visited shallow served,
      walk_of_error visited shallow plain, calls.error⟩
  | case3 n frames s visited shallow left after served child rest below ih =>
    obtain ⟨_, _, _, events, told, plain, calls⟩ := serves n s frames
    cases served.symm.trans told
    obtain ⟨result, root, last, more, walked, plainly, others⟩ := ih
    have down : Frame.plug ⟨left, [], rest⟩ child = left := by
      rw [Frame.plug, List.reverse_nil, List.nil_append, ← below, Node.withChildren_children]
    have whole : (after.withRoot child).within (⟨left, [], rest⟩ :: frames) =
        (after.withRoot left).within frames :=
      congrArg (fun n => after.withRoot (plugAll frames n)) down
    rw [whole] at others
    rw [walk_down visited shallow served below, walk_down visited shallow plain below]
    exact ⟨result, root, last, events ++ more, walked, plainly, calls.trans others⟩
  | case4 n frames s visited shallow left after served childless next onward step ih =>
    obtain ⟨_, _, _, events, told, plain, calls⟩ := serves n s frames
    cases served.symm.trans told
    obtain ⟨result, root, last, more, walked, plainly, others⟩ := ih
    have along := plugAll_advance left frames
    rw [step] at along
    have whole : (after.withRoot next).within onward = (after.withRoot left).within frames :=
      congrArg after.withRoot along
    rw [whole] at others
    rw [walk_onward visited shallow served childless step,
      walk_onward visited shallow plain childless step]
    exact ⟨result, root, last, events ++ more, walked, plainly, calls.trans others⟩
  | case5 n frames s visited shallow left after served childless root step =>
    obtain ⟨_, _, _, events, told, plain, calls⟩ := serves n s frames
    cases served.symm.trans told
    have along := plugAll_advance left frames
    rw [step] at along
    subst along
    exact ⟨.ok (visited + 1), plugAll frames left, after, events,
      walk_finished visited shallow served childless step,
      walk_finished visited shallow plain childless step, calls.done⟩

-- An action and the same action with its calls written down: they come to the same result and the
-- same context, and the run in between has been told.
def Tracks (plugins : List (Plugin (HandlerName ε) σ)) (action : Action (HandlerName ε) σ α)
    (noted : Action (SignedName ε σ) (Noted ε σ) α) (ctx : Context (SignedName ε σ) (Noted ε σ)) :
    Prop :=
  ∃ result after events, noted.exec ctx = (result, after) ∧
    action.exec ctx.plain = (result, after.plain) ∧ Logged plugins ctx events result after

theorem Tracks.bind {first : Action (HandlerName ε) σ α} {next : α → Action (HandlerName ε) σ β}
    {noted : Action (SignedName ε σ) (Noted ε σ) α}
    {following : α → Action (SignedName ε σ) (Noted ε σ) β} {ctx : Context (SignedName ε σ) (Noted ε σ)}
    (one : Tracks plugins first noted ctx)
    (others : ∀ a after, Tracks plugins (next a) (following a) after) :
    Tracks plugins (first >>= next) (noted >>= following) ctx := by
  obtain ⟨result, after, events, ran, plain, told⟩ := one
  unfold Tracks
  rw [Action.exec_bind, Action.exec_bind, ran, plain]
  cases result with
  | error f => exact ⟨_, _, events, rfl, rfl, told.error⟩
  | ok a =>
    obtain ⟨last, ended, more, went, plainly, rest⟩ := others a after
    exact ⟨last, ended, events ++ more, went, plainly, told.trans rest⟩

theorem Tracks.pure (a : α) (ctx : Context (SignedName ε σ) (Noted ε σ)) :
    Tracks plugins (Pure.pure a) (Pure.pure a) ctx :=
  ⟨.ok a, ctx, [], rfl, rfl, .still rfl (.refl _)⟩

theorem flush_tracks (owned : r.Owned plugins) (ctx : Context (SignedName ε σ) (Noted ε σ)) :
    Tracks plugins (flush perform (r.map HandlerName.unsigned)) (flush (noting perform) r) ctx := by
  by_cases none : r.count = 0
  · unfold flush
    rw [if_pos none, if_pos (show (r.map HandlerName.unsigned).count = 0 from none)]
    exact .pure () ctx
  · obtain ⟨result, root, after, events, walked, plain, told⟩ :=
      @walk_logged _ _ _ perform _ owned ctx.root [] ctx.toSetting 0
    unfold Tracks
    rw [exec_flush _ r none, exec_flush _ _ (show (r.map HandlerName.unsigned).count ≠ 0 from none),
      walked]
    have plainly : walk perform (r.map HandlerName.unsigned) ctx.plain.root [] ctx.plain.toSetting 0 =
        (result, root, after.plain) := plain
    rw [plainly]
    cases result with
    | error f => exact ⟨_, _, events, rfl, rfl, told.error⟩
    | ok count =>
      have counted : Logged plugins (after.withRoot root) [] (.ok ()) (after.countWalk.withRoot root) :=
        .still rfl ⟨rfl, by
          show _ = (after.plain.countWalk).idle
          rw [Setting.idle, Setting.idle, Setting.uncounted_countWalk]
          rfl⟩
      exact ⟨.ok (), after.countWalk.withRoot root, events ++ [], rfl, rfl, told.trans counted⟩

section
variable {κ : Type} {p : Plugin κ σ} {r filled : Registry κ} {ctx after : Context κ σ}
  {action : Action κ σ (List (Value × Option κ))} (given : p.work.handlers? = some action)
  (inserted : after.collecting = some filled)
include given inserted

theorem collect_of_error {f : Fault}
    (failed : action.exec { ctx with collecting := some { r with registrant := some p.name } } =
      (.error f, after)) :
    collect p r ctx =
      (.error (Plugin.blame p.name "capability" after.source f), { filled with registrant := none },
        { after with collecting := none }) := by
  unfold collect
  rw [given]
  dsimp only
  rw [failed]
  dsimp only
  rw [inserted]
  rfl

theorem collect_of_ok {pairs : List (Value × Option κ)}
    (offered : action.exec { ctx with collecting := some { r with registrant := some p.name } } =
      (.ok pairs, after)) :
    collect p r ctx =
      ((filled.registerAll (Registry.mapping pairs)).1.mapError
          (Plugin.blame p.name "capability" after.source),
        { (filled.registerAll (Registry.mapping pairs)).2 with registrant := none },
        { after with collecting := none }) := by
  unfold collect
  rw [given]
  dsimp only
  rw [offered]
  dsimp only
  rw [inserted, Option.getD_some]
  cases filled.registerAll (Registry.mapping pairs) with
  | mk result rest => cases result <;> rfl

end

theorem mapping_signPairs (pairs : List (Value × Option (HandlerName ε))) :
    Registry.mapping (p.signPairs pairs) = p.signPairs (Registry.mapping pairs) :=
  Registry.mapping_map (HandlerName.sign p) pairs

theorem unsigned_mapping (pairs : List (Value × Option (HandlerName ε))) :
    (Registry.mapping (p.signPairs pairs)).map
      (fun pair => (pair.1, pair.2.map HandlerName.unsigned)) = Registry.mapping pairs := by
  rw [mapping_signPairs, Plugin.signPairs, List.map_map]
  refine (List.map_congr_left fun pair _ => ?_).trans (List.map_id _)
  obtain ⟨key, handler⟩ := pair
  cases handler <;> rfl

theorem handlers_noted : p.noted.work.handlers? =
    p.work.handlers?.map fun action => action.noted p .registration p.signPairs := rfl

theorem noting_filled {filling : Registry (SignedName ε σ)} (owned : filling.Owned plugins)
    (member : p ∈ plugins) (placed : p.phase = .capability) (named : filling.owner = p.name)
    {s : Setting (SignedName ε σ) (Noted ε σ)} {after : Setting (HandlerName ε) σ}
    {handlers : List (String × HandlerName ε)} (collecting : s.collecting = some filling)
    (inserted : after.collecting = some ((filling.map HandlerName.unsigned).insertAll handlers))
    (point : EntryPoint (HandlerName ε)) (given left : Context (HandlerName ε) σ) (raised : Option Fault) :
    ∃ filled, (s.noting after ⟨p, point, given, left, raised⟩).collecting = some filled ∧
      filled.map HandlerName.unsigned = (filling.map HandlerName.unsigned).insertAll handlers ∧
      filled.registrant = filling.registrant ∧ filled.Owned plugins := by
  refine ⟨_, ?_, Registry.map_signed p filling _, Registry.insertAll_registrant _ handlers,
    owned.signed member placed named handlers⟩
  unfold Setting.noting
  rw [collecting, inserted]
  rfl

theorem collect_logged (owned : r.Owned plugins) (member : p ∈ plugins) (placed : p.phase = .capability)
    (sound : p.Sound) (ctx : Context (SignedName ε σ) (Noted ε σ)) :
    ∃ result filled after events,
      collect p.noted r ctx = (result, filled, after) ∧
      collect p (r.map HandlerName.unsigned) ctx.plain =
        (result, filled.map HandlerName.unsigned, after.plain) ∧
      filled.Owned plugins ∧ Logged plugins ctx events result after := by
  cases given : p.work.handlers? with
  | none =>
    unfold collect
    rw [handlers_noted, given]
    exact ⟨_, r, ctx, [], rfl, rfl, owned, .still rfl (.refl _)⟩
  | some action =>
    have present : p.noted.work.handlers? = some (action.noted p .registration p.signPairs) := by
      rw [handlers_noted, given]
      rfl
    let filling : Registry (SignedName ε σ) := { r with registrant := some p.name }
    let start : Context (SignedName ε σ) (Noted ε σ) := { ctx with collecting := some filling }
    have sealed : filling.Owned plugins := owned
    obtain ⟨handlers, inserted⟩ :=
      sound.registers action given start.plain (filling.map HandlerName.unsigned) rfl
    rcases ran : action.exec start.plain with ⟨result, after⟩
    rw [ran] at inserted
    obtain ⟨filled, collecting, unsigned, registrant, signatures⟩ :=
      noting_filled sealed member placed (owner_of_registrant sound.named rfl) (s := start.toSetting)
        rfl inserted .registration start.plain after (raisedBy result)
    let event : Event (HandlerName ε) σ := ⟨p, .registration, start.plain, after, raisedBy result⟩
    let ended : Context (SignedName ε σ) (Noted ε σ) :=
      { (start.toSetting.noting after.toSetting event).withRoot after.root with collecting := none }
    have plain : ended.plain = { after with collecting := none } := by
      show ({ (start.toSetting.noting after.toSetting event).plain.withRoot after.root with
        collecting := none } : Context (HandlerName ε) σ) = _
      rw [Setting.plain_noting]
      rfl
    have moves : event.Moves ctx.plain ended.plain := by
      refine ⟨[], .inl rfl, ⟨rfl, rfl⟩, ?_⟩
      rw [plain]
      exact ⟨rfl, rfl⟩
    have noted := Action.exec_noted p .registration p.signPairs ran
    cases result with
    | error f =>
      refine ⟨_, _, ended, [event], collect_of_error present collecting noted, ?_, signatures, ?_⟩
      · refine (collect_of_error given inserted ran).trans ?_
        rw [plain, ← unsigned]
        rfl
      · refine .one rfl moves fun g raised => ?_
        cases raised
        refine ⟨member, rfl, ?_⟩
        show _ = Except.error (Plugin.blame p.name p.phase.name _ f)
        rw [placed]
        rfl
    | ok pairs =>
      have registered := Registry.registerAll_map HandlerName.unsigned filled
        (Registry.mapping (p.signPairs pairs))
      rw [unsigned_mapping, unsigned] at registered
      refine ⟨_, _, ended, [event], collect_of_ok present collecting noted, ?_, ?_,
        .one rfl moves fun g raised => by cases raised⟩
      · refine (collect_of_ok given inserted ran).trans ?_
        rw [plain, registered]
        rfl
      · rw [mapping_signPairs]
        exact signatures.registerAll member placed (owner_of_registrant sound.named registrant)
          (Registry.mapping pairs)

theorem run_tracks (member : p ∈ plugins) (ctx : Context (SignedName ε σ) (Noted ε σ)) :
    Tracks plugins p.run p.noted.run ctx := by
  rcases ran : p.work.apply.exec ctx.plain with ⟨result, after⟩
  let event : Event (HandlerName ε) σ := ⟨p, .apply, ctx.plain, after, raisedBy result⟩
  let noted := ctx.toSetting.noting after.toSetting event
  have unnoted : noted.plain = after.toSetting := Setting.plain_noting _ _ _
  have told : p.noted.work.apply.exec ctx = (result.map id, noted.withRoot after.root) :=
    Action.exec_noted p .apply id ran
  have plain : (noted.withRoot after.root).plain = after := by
    show noted.plain.withRoot after.root = after
    rw [unnoted]
    rfl
  unfold Tracks
  rw [Plugin.exec_run, Plugin.exec_run, told, ran]
  cases result with
  | error f =>
    refine ⟨_, noted.withRoot after.root, [event], rfl, ?_, .one rfl ?_ fun g raised => ?_⟩
    · rw [plain]
      rfl
    · rw [plain]
      exact ⟨[], .inl rfl, .refl _, .refl _⟩
    · cases raised
      exact ⟨member, rfl, rfl⟩
  | ok _ =>
    have timed : ((noted.time p.name).withRoot after.root).plain =
        after.withSetting (after.toSetting.time p.name) := by
      show (noted.plain.time p.name).withRoot after.root = _
      rw [unnoted]
      rfl
    refine ⟨.ok (), (noted.time p.name).withRoot after.root, [event], rfl, ?_, .one rfl ?_ nofun⟩
    · rw [timed]
    · rw [timed]
      exact ⟨[], .inl rfl, .refl _, rfl, idle_time after.toSetting p.name⟩

theorem phase_tracks {batch : List (Plugin (HandlerName ε) σ)} (among : ∀ p ∈ batch, p ∈ plugins)
    (placed : ∀ p ∈ batch, p.phase = .capability) (sound : ∀ p ∈ batch, p.Sound)
    (owned : r.Owned plugins) (ctx : Context (SignedName ε σ) (Noted ε σ)) :
    Tracks plugins (phase perform batch (r.map HandlerName.unsigned))
      (phase (noting perform) (batch.map Plugin.noted) r) ctx := by
  induction batch generalizing r ctx with
  | nil => exact flush_tracks owned ctx
  | cons p rest ih =>
    have others := fun {filled} (held : filled.Owned plugins) => @ih filled
      (fun q later => among q (List.mem_cons_of_mem _ later))
      (fun q later => placed q (List.mem_cons_of_mem _ later))
      (fun q later => sound q (List.mem_cons_of_mem _ later)) held
    have same : p.noted.isBatched = p.isBatched := Option.isSome_map
    rw [List.map_cons, phase, phase, same]
    cases batched : p.isBatched with
    | true =>
      obtain ⟨result, filled, after, events, collected, plain, held, told⟩ := collect_logged owned
        (among p List.mem_cons_self) (placed p List.mem_cons_self) (sound p List.mem_cons_self) ctx
      rw [if_pos rfl, if_pos rfl]
      unfold Tracks
      rw [Action.exec_get_bind, Action.exec_get_bind, collected, plain]
      cases result with
      | error f => exact ⟨.error f, after, events, rfl, rfl, told.error⟩
      | ok _ =>
        obtain ⟨result, ended, more, ran, plainly, rest⟩ := others held after
        exact ⟨result, ended, events ++ more, ran, plainly, told.trans rest⟩
    | false =>
      rw [if_neg (by simp), if_neg (by simp)]
      refine (flush_tracks owned ctx).bind fun _ flushed => ?_
      refine (run_tracks (among p List.mem_cons_self) flushed).bind fun _ passed => ?_
      have empty : r.clear.Owned plugins := fun _ _ none => absurd none List.not_mem_nil
      exact others empty passed

end Dispatch

end SemanticMarkup
