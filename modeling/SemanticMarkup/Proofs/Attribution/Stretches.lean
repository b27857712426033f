import SemanticMarkup.Proofs.Attribution.Run
import SemanticMarkup.Proofs.Dispatch.Stretches

namespace SemanticMarkup
open Dispatch

abbrev Watched (ε σ : Type) := Context (SignedName ε σ) (Noted ε σ)

namespace Dispatch

section
variable {κ σ : Type} {perform : κ → Handler κ σ} {r : Registry κ} {P : Setting κ σ → Prop}
  (timed : ∀ s name, P s → P (s.time name))
include timed

theorem serve_keeps {entries : List (Entry κ)}
    (each : ∀ e ∈ entries, ∀ n s, P s → P ((perform e.handler).run.run (n, s)).2.2) (n : Node)
    {s : Setting κ σ} (holds : P s) : P (serve perform entries (n, s)).2.2 := by
  induction entries generalizing n s with
  | nil => exact holds
  | cons e rest ih =>
    have others := @ih fun e later => each e (List.mem_cons_of_mem _ later)
    have kept := each e List.mem_cons_self n s holds
    rw [serve]
    rcases ran : (perform e.handler).run.run (n, s) with ⟨answer, left, after⟩
    rw [ran] at kept
    cases answer with
    | error f => exact kept
    | ok answer =>
      cases answer with
      | none => exact others left (timed after e.owner kept)
      | some other => exact others other (timed after e.owner kept)

theorem walk_keeps
    (each : ∀ m, ∀ e ∈ r.forNode m, ∀ n s, P s → P ((perform e.handler).run.run (n, s)).2.2)
    (n : Node) (frames : List Frame) {s : Setting κ σ} (visited : Nat) (holds : P s) :
    P (walk perform r n frames s visited).2.2 := by
  have served := fun m s (holds : P s) => serve_keeps timed (each m) m holds
  induction n, frames, s, visited using walk.induct perform r with
  | case1 n frames s visited deep =>
    rw [walk, dif_pos deep]
    exact holds
  | case2 n frames s visited shallow f left after ran =>
    have kept := served n s holds
    rw [walk_of_error visited shallow ran]
    rwa [ran] at kept
  | case3 n frames s visited shallow left after ran child rest below ih =>
    have kept := served n s holds
    rw [walk_down visited shallow ran below]
    rw [ran] at kept
    exact ih kept
  | case4 n frames s visited shallow left after ran childless next onward step ih =>
    have kept := served n s holds
    rw [walk_onward visited shallow ran childless step]
    rw [ran] at kept
    exact ih kept
  | case5 n frames s visited shallow left after ran childless root step =>
    have kept := served n s holds
    rw [walk_finished visited shallow ran childless step]
    rwa [ran] at kept

end

variable {ε σ : Type} {perform : HandlerName ε → Handler (HandlerName ε) σ}
  {plugins batch whole : List (Plugin (HandlerName ε) σ)} {p : Plugin (HandlerName ε) σ}
  {r : Registry (SignedName ε σ)} {a b ctx : Watched ε σ}
  {events more : List (Event (HandlerName ε) σ)}

def Logs (a b : Watched ε σ) (events : List (Event (HandlerName ε) σ)) : Prop :=
  b.shared.2 = a.shared.2 ++ events

theorem Logs.trans {c : Watched ε σ} (first : Logs a b events) (second : Logs b c more) :
    Logs a c (events ++ more) := by
  rw [Logs, second, first, List.append_assoc]

def Registering (batch : List (Plugin (HandlerName ε) σ))
    (events : List (Event (HandlerName ε) σ)) : Prop :=
  List.Forall₂ (fun p e => e.plugin = p ∧ e.point = .registration) batch events

def Handling (batch : List (Plugin (HandlerName ε) σ))
    (events : List (Event (HandlerName ε) σ)) : Prop :=
  ∀ e ∈ events, e.plugin ∈ batch ∧ ∃ name, e.point = .handler name

structure Asked (batch begun : List (Plugin (HandlerName ε) σ)) (a : Watched ε σ)
    (result : Except Fault (Registry (SignedName ε σ))) (b : Watched ε σ) : Prop where
  gathered : (gather (batch.map Plugin.noted) .empty).exec a = (result, b)
  called : ∃ events, Logs a b events ∧ Registering begun events

structure Walked (perform : HandlerName ε → Handler (HandlerName ε) σ)
    (batch : List (Plugin (HandlerName ε) σ)) (r : Registry (SignedName ε σ)) (a : Watched ε σ)
    (result : Except Fault Nat) (b : Watched ε σ) : Prop where
  some : r.count ≠ 0
  owned : r.Owned batch
  ran : (Dispatch.run (noting perform) r).exec a = (result, b)
  called : ∃ events, Logs a b events ∧ Handling batch events

-- How a stretch goes in a run that writes its calls down: from which context, how many walks it
-- gets done, and how it ends where. A plugin without handlers is called once. Plugins with handlers
-- are asked for them one after the other, and if they have given any there is one walk.
inductive Performs (perform : HandlerName ε → Handler (HandlerName ε) σ) :
    Stretch (HandlerName ε) σ → Watched ε σ → Nat → Except Fault Unit → Watched ε σ → Prop where
  | alone {p : Plugin (HandlerName ε) σ} {a b : Watched ε σ} {result : Except Fault Unit}
      {e : Event (HandlerName ε) σ} (ran : p.noted.run.exec a = (result, b)) (called : Logs a b [e])
      (plugin : e.plugin = p) (point : e.point = .apply) :
      Performs perform (.alone p) a 0 result b
  | refused {batch begun : List (Plugin (HandlerName ε) σ)} {a b : Watched ε σ} {f : Fault}
      (first : begun <+: batch) (asked : Asked batch begun a (.error f) b) :
      Performs perform (.shared batch) a 0 (.error f) b
  | still {batch : List (Plugin (HandlerName ε) σ)} {a b : Watched ε σ}
      {r : Registry (SignedName ε σ)} (asked : Asked batch batch a (.ok r) b) (none : r.count = 0) :
      Performs perform (.shared batch) a 0 (.ok ()) b
  | walked {batch : List (Plugin (HandlerName ε) σ)} {a b c : Watched ε σ}
      {r : Registry (SignedName ε σ)} {visited : Nat} (asked : Asked batch batch a (.ok r) b)
      (walked : Walked perform batch r b (.ok visited) c) :
      Performs perform (.shared batch) a 1 (.ok ()) (c.withSetting c.toSetting.countWalk)
  | broken {batch : List (Plugin (HandlerName ε) σ)} {a b c : Watched ε σ}
      {r : Registry (SignedName ε σ)} {f : Fault} (asked : Asked batch batch a (.ok r) b)
      (walked : Walked perform batch r b (.error f) c) :
      Performs perform (.shared batch) a 0 (.error f) c

inductive PerformsAll (perform : HandlerName ε → Handler (HandlerName ε) σ) :
    List (Stretch (HandlerName ε) σ) → Watched ε σ → Nat → Except Fault Unit → Watched ε σ →
      Prop where
  | done (a : Watched ε σ) : PerformsAll perform [] a 0 (.ok ()) a
  | next {s : Stretch (HandlerName ε) σ} {rest : List (Stretch (HandlerName ε) σ)}
      {a b c : Watched ε σ} {walks more : Nat} {result : Except Fault Unit}
      (first : Performs perform s a walks (.ok ()) b)
      (others : PerformsAll perform rest b more result c) :
      PerformsAll perform (s :: rest) a (walks + more) result c
  | failed {s : Stretch (HandlerName ε) σ} {rest : List (Stretch (HandlerName ε) σ)}
      {a b : Watched ε σ} {walks : Nat} {f : Fault}
      (first : Performs perform s a walks (.error f) b) :
      PerformsAll perform (s :: rest) a walks (.error f) b

def asking (p : Plugin (HandlerName ε) σ) (r : Registry (SignedName ε σ)) (ctx : Watched ε σ) :
    Watched ε σ :=
  { ctx with collecting := some { r with registrant := some p.name } }

theorem collect_noted {action : Action (HandlerName ε) σ (List (Value × Option (HandlerName ε)))}
    (given : p.work.handlers? = some action)
    {result : Except Fault (List (Value × Option (HandlerName ε)))}
    {after : Context (HandlerName ε) σ} (ran : action.exec (asking p r ctx).plain = (result, after)) :
    (collect p.noted r ctx).2.2 =
      { ((asking p r ctx).toSetting.noting after.toSetting
          ⟨p, .registration, (asking p r ctx).plain, after, raisedBy result⟩).withRoot after.root with
        collecting := none } := by
  have present : p.noted.work.handlers? = some (action.noted p .registration p.signPairs) := by
    rw [handlers_noted, given]
    rfl
  have start : ({ ctx with collecting := some { r with registrant := some p.noted.name } } :
    Watched ε σ) = asking p r ctx := rfl
  unfold collect
  rw [present]
  dsimp only
  rw [start, Action.exec_noted p .registration p.signPairs ran]

theorem collect_logs (batched : p.isBatched = true) (r : Registry (SignedName ε σ))
    (ctx : Watched ε σ) :
    ∃ e, Logs ctx (collect p.noted r ctx).2.2 [e] ∧ e.plugin = p ∧ e.point = .registration := by
  obtain ⟨action, given⟩ := Option.isSome_iff_exists.mp batched
  rcases ran : action.exec (asking p r ctx).plain with ⟨result, after⟩
  refine ⟨⟨p, .registration, (asking p r ctx).plain, after, raisedBy result⟩, ?_, rfl, rfl⟩
  rw [Logs, collect_noted given ran]
  rfl

theorem gather_logged
    (among : ∀ p ∈ batch, p ∈ whole ∧ p.phase = .capability ∧ p.Sound ∧ p.isBatched = true)
    (owned : r.Owned whole) (a : Watched ε σ) :
    ∃ result b begun events, (gather (batch.map Plugin.noted) r).exec a = (result, b) ∧
      begun <+: batch ∧ Logs a b events ∧ Registering begun events ∧
      ∀ filled, result = .ok filled → begun = batch ∧ filled.Owned whole := by
  induction batch generalizing r a with
  | nil =>
    refine ⟨.ok r, a, [], [], rfl, List.prefix_rfl, (List.append_nil _).symm, .nil, ?_⟩
    intro filled same
    cases same
    exact ⟨rfl, owned⟩
  | cons p rest ih =>
    obtain ⟨member, placed, sound, batched⟩ := among p List.mem_cons_self
    obtain ⟨result, filled, middle, _, collected, _, held, _⟩ :=
      collect_logged owned member placed sound a
    obtain ⟨e, called, plugin, point⟩ := collect_logs batched r a
    rw [collected] at called
    rw [List.map_cons]
    cases result with
    | error f =>
      exact ⟨.error f, middle, [p], [e], exec_gather_error collected, List.prefix_append [p] rest,
        called, .cons ⟨plugin, point⟩ .nil, nofun⟩
    | ok _ =>
      obtain ⟨last, b, begun, events, gathered, start, logs, registering, fine⟩ :=
        ih (fun q later => among q (List.mem_cons_of_mem _ later)) held middle
      refine ⟨last, b, p :: begun, e :: events, (exec_gather_ok collected).trans gathered,
        (List.prefix_cons_inj p).mpr start, called.trans logs, .cons ⟨plugin, point⟩ registering, ?_⟩
      intro r same
      obtain ⟨all, owns⟩ := fine r same
      exact ⟨congrArg (p :: ·) all, owns⟩

theorem walk_noted_keeps {P : Setting (SignedName ε σ) (Noted ε σ) → Prop}
    (timed : ∀ s name, P s → P (s.time name))
    (called : ∀ p ∈ batch, ∀ name n s, P s → ∀ answer left after,
      (perform name).run.run (n, s.plain) = (answer, left, after) →
        P (s.noting after ⟨p, .handler name, s.plain.withRoot n, after.withRoot (inPlace answer left),
          raisedBy answer⟩))
    (owned : r.Owned batch) (root : Node) {s : Setting (SignedName ε σ) (Noted ε σ)} (holds : P s) :
    P (walk (noting perform) r root [] s 0).2.2 := by
  refine walk_keeps timed (fun m e among n s holds => ?_) root [] 0 holds
  obtain ⟨p, member, _, _, name, signature⟩ := owned.forNode m e among
  rcases ran : (perform name).run.run (n, s.plain) with ⟨answer, left, after⟩
  rw [signature, run_signed p ran]
  exact called p member name n s holds answer left after ran

theorem walked_of_owned (some : r.count ≠ 0) (owned : r.Owned batch)
    (a : Watched ε σ) :
    Walked perform batch r a ((Dispatch.run (noting perform) r).exec a).1
      ((Dispatch.run (noting perform) r).exec a).2 where
  some := some
  owned := owned
  ran := rfl
  called := by
    let Fine (s : Setting (SignedName ε σ) (Noted ε σ)) : Prop :=
      ∃ events, s.shared.2 = a.shared.2 ++ events ∧ Handling batch events
    have none : Fine a.toSetting :=
      ⟨[], (List.append_nil _).symm, fun e none => absurd none List.not_mem_nil⟩
    have kept : Fine (walk (noting perform) r a.root [] a.toSetting 0).2.2 := by
      refine walk_noted_keeps (fun s name holds => holds) ?_ owned a.root none
      rintro p member name n s ⟨events, logs, handling⟩ answer left after ran
      let event : Event (HandlerName ε) σ :=
        ⟨p, .handler name, s.plain.withRoot n, after.withRoot (inPlace answer left), raisedBy answer⟩
      have logged : (s.noting after event).shared.2 = s.shared.2 ++ [event] := rfl
      refine ⟨events ++ [event], by rw [logged, logs, List.append_assoc], fun e among => ?_⟩
      rcases List.mem_append.mp among with earlier | last
      · exact handling e earlier
      · rw [List.mem_singleton.mp last]
        exact ⟨member, name, rfl⟩
    obtain ⟨events, logs, handling⟩ := kept
    refine ⟨events, ?_, handling⟩
    rw [exec_run (noting perform) r some a]
    exact logs

theorem run_logs (p : Plugin (HandlerName ε) σ) (a : Watched ε σ) :
    ∃ e, Logs a (p.noted.run.exec a).2 [e] ∧ e.plugin = p ∧ e.point = .apply := by
  rcases ran : p.work.apply.exec a.plain with ⟨result, after⟩
  have noted : p.noted.work.apply.exec a = _ := Action.exec_noted p .apply id ran
  refine ⟨⟨p, .apply, a.plain, after, raisedBy result⟩, ?_, rfl, rfl⟩
  rw [Plugin.exec_run, noted]
  cases result <;> rfl

theorem stretch_performs {s : Stretch (HandlerName ε) σ} (even : s.Even)
    (fit : ∀ p ∈ s.plugins, p.phase = .capability ∧ p.Sound) (a : Watched ε σ) :
    ∃ walks result b, ((s.map Plugin.noted).run (noting perform)).exec a = (result, b) ∧
      Performs perform s a walks result b := by
  cases s with
  | alone p =>
    obtain ⟨e, called, plugin, point⟩ := run_logs p a
    exact ⟨0, _, _, rfl, .alone rfl called plugin point⟩
  | shared batch =>
    obtain ⟨result, b, begun, events, gathered, start, logs, registering, fine⟩ :=
      @gather_logged _ _ batch batch .empty
        (fun p member => ⟨member, (fit p member).1, (fit p member).2, even.2 p member⟩)
        Registry.owned_empty a
    have asked : Asked batch begun a result b := ⟨gathered, events, logs, registering⟩
    have ran : (((Stretch.shared batch).map Plugin.noted).run (noting perform)).exec a =
        (gather (batch.map Plugin.noted) .empty >>= flush (noting perform)).exec a := rfl
    rw [Action.exec_bind, gathered] at ran
    cases result with
    | error f => exact ⟨0, .error f, b, ran, .refused start asked⟩
    | ok r =>
      obtain ⟨rfl, owned⟩ := fine r rfl
      by_cases none : r.count = 0
      · refine ⟨0, .ok (), b, ran.trans ?_, .still asked none⟩
        dsimp only
        unfold flush
        rw [if_pos none]
        rfl
      · have walked := @walked_of_owned _ _ perform _ _ none owned b
        dsimp only at ran
        unfold flush at ran
        rw [if_neg none, Action.exec_bind] at ran
        rcases went : (Dispatch.run (noting perform) r).exec b with ⟨result, c⟩
        rw [went] at ran walked
        cases result with
        | error f => exact ⟨0, .error f, c, ran, .broken asked walked⟩
        | ok visited => exact ⟨1, .ok (), _, ran, .walked asked walked⟩

theorem all_perform {stretches : List (Stretch (HandlerName ε) σ)} (even : ∀ s ∈ stretches, s.Even)
    (fit : ∀ p ∈ stretches.flatMap Stretch.plugins, p.phase = .capability ∧ p.Sound)
    (a : Watched ε σ) :
    ∃ walks result b,
      (runAll (noting perform) (stretches.map (Stretch.map Plugin.noted))).exec a = (result, b) ∧
      PerformsAll perform stretches a walks result b := by
  induction stretches generalizing a with
  | nil => exact ⟨0, .ok (), a, rfl, .done a⟩
  | cons s rest ih =>
    rw [List.flatMap_cons] at fit
    obtain ⟨walks, result, b, ran, first⟩ := @stretch_performs _ _ perform _
      (even s List.mem_cons_self) (fun p member => fit p (List.mem_append_left _ member)) a
    rw [List.map_cons, runAll, Action.exec_bind, ran]
    cases result with
    | error f => exact ⟨walks, .error f, b, rfl, .failed first⟩
    | ok _ =>
      obtain ⟨more, last, c, went, others⟩ := ih
        (fun t later => even t (List.mem_cons_of_mem _ later))
        (fun p member => fit p (List.mem_append_right _ member)) b
      exact ⟨walks + more, last, c, went, .next first others⟩

end Dispatch

end SemanticMarkup
