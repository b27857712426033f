import SemanticMarkup.Proofs.Attribution.Stretches
import SemanticMarkup.Proofs.Replacement.Soundness

namespace SemanticMarkup
open Walk Passes Dispatch
variable {ε σ α β : Type}

def Passes.CapabilityHandler.plugin : CapabilityHandler → String
  | .style _ _ => "style-capability"
  | .layout => "layout-capability"
  | .media => "media-capability"

def Context.recording {κ : Type} (ctx : Context κ σ) : Context κ (σ × List (Call κ)) :=
  { ctx.toSetting.sharing (ctx.shared, []) with root := ctx.root }

namespace Dispatch

-- A builtin handler under its key and in the name of its plugin, or a handler that a caller brings.
inductive Ours (g : Registration (HandlerName ε)) : Prop where
  | builtin {h : CapabilityHandler} (stands : Stands g h) (owner : g.owner = h.plugin) : Ours g
  | extra {e : ε} (handler : g.handler = .extra e) : Ours g

-- Handlers that never fail on sound trees, and leave sound trees in their place.
def Tame (extras : ε → Handler (HandlerName ε) σ) : Prop :=
  ∀ e n s, Everywhere Node.Sound n → ∃ answer left after,
    (extras e).run.run (n, s) = (.ok answer, left, after) ∧ Everywhere Node.Sound (answer.getD left)

structure Call.Fine (σ : Type) (c : Call (HandlerName ε)) : Prop where
  sound : Everywhere Node.Sound c.node
  answers : ∀ h, c.handler = .builtin h → ∀ s : Setting (HandlerName ε) σ,
    (h.perform : Handler (HandlerName ε) σ).run.run (c.node, s) = (.ok none, h.edit c.node, s)

-- After these calls a text stands in the place of an element: an extra handler put one there, and
-- those that were called behind it left one there.
inductive Displaced (perform : HandlerName ε → Handler (HandlerName ε) σ) :
    List (Call (HandlerName ε)) → Node → Prop where
  | put {earlier : List (Call (HandlerName ε))} {e : ε} {n left : Node} {s after : Setting (HandlerName ε) σ}
      {answer : Option Node} (element : n.isElement = true)
      (ran : (perform (.extra e)).run.run (n, s) = (.ok answer, left, after))
      (text : (answer.getD left).isElement = false) :
      Displaced perform (earlier ++ [⟨.extra e, n⟩]) (answer.getD left)
  | kept {calls : List (Call (HandlerName ε))} {name : HandlerName ε} {n left : Node}
      {s after : Setting (HandlerName ε) σ} {answer : Option Node} (displaced : Displaced perform calls n)
      (ran : (perform name).run.run (n, s) = (.ok answer, left, after))
      (text : (answer.getD left).isElement = false) :
      Displaced perform (calls ++ [⟨name, n⟩]) (answer.getD left)

-- How calls can end: all is well, or the tree is too deep, or the handler for styles has come upon a
-- text in the place of an element. Up to there no builtin handler fails.
inductive Tolerated (perform : HandlerName ε → Handler (HandlerName ε) σ) (source : Value)
    (calls : List (Call (HandlerName ε))) : Except Fault α → Prop where
  | done (fine : ∀ c ∈ calls, c.Fine σ) (value : α) : Tolerated perform source calls (.ok value)
  | tooDeep (fine : ∀ c ∈ calls, c.Fine σ) :
      Tolerated perform source calls (.error (.tooDeep depthLimit "capability" source none))
  | refused {earlier : List (Call (HandlerName ε))} {removeStyle removeClass : Bool} {leaf : TextLeaf}
      (fine : ∀ c ∈ earlier, c.Fine σ) (displaced : Displaced perform earlier (.text leaf))
      (last : calls = earlier ++ [⟨.builtin (.style removeStyle removeClass), .text leaf⟩]) :
      Tolerated perform source calls
        (.error (Plugin.blame "style-capability" "capability" source CapabilityHandler.noAttributes))

section
variable {perform : HandlerName ε → Handler (HandlerName ε) σ} {source : Value}
  {calls earlier : List (Call (HandlerName ε))} {result : Except Fault α}

theorem Displaced.behind {n : Node} (displaced : Displaced perform calls n)
    (earlier : List (Call (HandlerName ε))) : Displaced perform (earlier ++ calls) n := by
  induction displaced with
  | put element ran text =>
    rw [← List.append_assoc]
    exact .put element ran text
  | kept _ ran text ih =>
    rw [← List.append_assoc]
    exact .kept ih ran text

namespace Tolerated

theorem map (tolerated : Tolerated perform source calls result) (f : α → β) :
    Tolerated perform source calls (result.map f) := by
  cases tolerated with
  | done fine value => exact .done fine (f value)
  | tooDeep fine => exact .tooDeep fine
  | refused fine displaced last => exact .refused fine displaced last

theorem fine {value : α} (tolerated : Tolerated perform source calls (.ok value)) :
    ∀ c ∈ calls, c.Fine σ := by
  cases tolerated with
  | done fine _ => exact fine

theorem behind (tolerated : Tolerated perform source calls result) (fine : ∀ c ∈ earlier, c.Fine σ) :
    Tolerated perform source (earlier ++ calls) result := by
  cases tolerated with
  | done later value => exact .done (List.forall_mem_append.mpr ⟨fine, later⟩) value
  | tooDeep later => exact .tooDeep (List.forall_mem_append.mpr ⟨fine, later⟩)
  | refused later displaced last =>
    exact .refused (List.forall_mem_append.mpr ⟨fine, later⟩) (displaced.behind earlier)
      (by rw [last, List.append_assoc])

end Tolerated
end

section
variable {extras : ε → Handler (HandlerName ε) σ} {picked done : List (Registration (HandlerName ε))}
  {n : Node} {before : List (Call (HandlerName ε))}

-- How a node can have come before handlers: it is an element, or a text in the place of one, or it
-- was a text when it came, which no builtin handler serves.
def Reached (perform : HandlerName ε → Handler (HandlerName ε) σ)
    (picked : List (Registration (HandlerName ε))) (before : List (Call (HandlerName ε))) (n : Node) :
    Prop :=
  n.isElement = true ∨ Displaced perform before n ∨ ∀ g ∈ picked, ∃ e, g.handler = .extra e

theorem perform_other (h : CapabilityHandler)
    (other : ¬∃ removeStyle removeClass, h = .style removeStyle removeClass) (n : Node)
    (s : Setting (HandlerName ε) σ) :
    (h.perform : Handler (HandlerName ε) σ).run.run (n, s) = (.ok none, h.edit n, s) := by
  cases h with
  | style removeStyle removeClass => exact absurd ⟨removeStyle, removeClass, rfl⟩ other
  | _ => rfl

theorem fine_of_runs {g : Registration (HandlerName ε)} {h : CapabilityHandler}
    (handler : g.handler = .builtin h) (sound : Everywhere Node.Sound n)
    (runs : ∀ t : Setting (HandlerName ε) σ,
      (h.perform : Handler (HandlerName ε) σ).run.run (n, t) = (.ok none, h.edit n, t)) :
    Call.Fine σ ⟨g.handler, n⟩ := by
  refine ⟨sound, fun other given t => ?_⟩
  cases handler.symm.trans given
  exact runs t

theorem Reached.displaced {g : Registration (HandlerName ε)} {h : CapabilityHandler}
    {perform : HandlerName ε → Handler (HandlerName ε) σ} (reached : Reached perform (g :: picked) before n)
    (handler : g.handler = .builtin h) (text : n.isElement = false) : Displaced perform before n := by
  rcases reached with element | displaced | extra
  · cases element.symm.trans text
  · exact displaced
  · obtain ⟨e, other⟩ := extra g List.mem_cons_self
    cases handler.symm.trans other

theorem call_tolerated (tame : Tame extras) {g : Registration (HandlerName ε)} (ours : Ours g)
    (sound : Everywhere Node.Sound n)
    (reached : Reached (HandlerName.perform extras) (g :: picked) before n)
    (s : Setting (HandlerName ε) σ) :
    (∃ answer left after,
      (HandlerName.perform extras g.handler).run.run (n, s) = (.ok answer, left, after) ∧
      Call.Fine σ ⟨g.handler, n⟩ ∧ Everywhere Node.Sound (answer.getD left) ∧
      Reached (HandlerName.perform extras) picked (before ++ [⟨g.handler, n⟩]) (answer.getD left)) ∨
    ∃ removeStyle removeClass leaf, g.handler = .builtin (.style removeStyle removeClass) ∧
      g.owner = "style-capability" ∧ n = .text leaf ∧
      Displaced (HandlerName.perform extras) before n ∧
      (HandlerName.perform extras g.handler).run.run (n, s) =
        (.error CapabilityHandler.noAttributes, n, s) := by
  cases ours with
  | @builtin h stands owner =>
    have handler := stands.1
    have performs : HandlerName.perform extras g.handler = h.perform := by rw [handler]; rfl
    rw [performs]
    cases element : n.isElement with
    | true =>
      have runs : ∀ t : Setting (HandlerName ε) σ, _ := perform_run h element
      exact .inl ⟨none, h.edit n, s, runs s, fine_of_runs handler sound runs, sound_edit h sound,
        .inl ((isElement_edit h n).trans element)⟩
    | false =>
      have displaced := reached.displaced handler element
      by_cases styled : ∃ removeStyle removeClass, h = .style removeStyle removeClass
      · obtain ⟨removeStyle, removeClass, rfl⟩ := styled
        obtain ⟨leaf, rfl⟩ := sound.here.text_of_other element
        exact .inr ⟨removeStyle, removeClass, leaf, handler, owner, rfl, displaced, rfl⟩
      · have runs : ∀ t : Setting (HandlerName ε) σ, _ := perform_other h styled n
        have ran : (HandlerName.perform extras g.handler).run.run (n, s) = (.ok none, h.edit n, s) := by
          rw [performs, runs]
        exact .inl ⟨none, h.edit n, s, runs s, fine_of_runs handler sound runs, sound_edit h sound,
          .inr (.inl (.kept displaced ran ((isElement_edit h n).trans element)))⟩
  | @extra e handler =>
    obtain ⟨answer, left, after, ran, kept⟩ := tame e n s sound
    have performs : HandlerName.perform extras g.handler = extras e := by rw [handler]; rfl
    rw [performs]
    refine .inl ⟨answer, left, after, ran, ⟨sound, fun h same => ?_⟩, kept, ?_⟩
    · rw [handler] at same
      cases same
    · rw [handler]
      cases text : (answer.getD left).isElement with
      | true => exact .inl text
      | false =>
        rcases reached with element | displaced | others
        · exact .inr (.inl (.put element ran text))
        · exact .inr (.inl (.kept displaced ran text))
        · exact .inr (.inr fun other member => others other (List.mem_cons_of_mem _ member))

theorem handled_tolerated (tame : Tame extras) (ours : ∀ g ∈ picked, Ours g)
    (sound : Everywhere Node.Sound n) (s : Setting (HandlerName ε) σ)
    (fine : ∀ c ∈ before, c.Fine σ)
    (reached : Reached (HandlerName.perform extras) picked before n) :
    let report := handled (HandlerName.perform extras) picked n s
    Tolerated (HandlerName.perform extras) report.setting.source (before ++ report.calls) report.outcome ∧
      (report.outcome = .ok () → Everywhere Node.Sound report.left) := by
  induction picked generalizing n s before with
  | nil =>
    dsimp only [handled]
    rw [List.append_nil]
    exact ⟨.done fine (), fun _ => sound⟩
  | cons g rest ih =>
    have here := ours g List.mem_cons_self
    rcases call_tolerated tame here sound reached s with
      ⟨answer, left, after, ran, called, kept, onward⟩ |
        ⟨removeStyle, removeClass, leaf, handler, owner, rfl, displaced, ran⟩
    · have others := ih (fun g later => ours g (List.mem_cons_of_mem _ later)) kept
        (after.time g.owner) (List.forall_mem_append.mpr ⟨fine, List.forall_mem_singleton.mpr called⟩) onward
      rw [handled, ran]
      dsimp only [Report.after] at others ⊢
      rwa [List.append_assoc] at others
    · rw [handled, ran]
      dsimp only
      rw [owner, handler]
      refine ⟨.refused fine displaced rfl, fun same => ?_⟩
      cases same

theorem serving_tolerated (tame : Tame extras) (ours : ∀ g ∈ done, Ours g)
    (sound : Everywhere Node.Sound n) (s : Setting (HandlerName ε) σ) :
    let report := serving (HandlerName.perform extras) done n s
    Tolerated (HandlerName.perform extras) report.setting.source report.calls report.outcome ∧
      (report.outcome = .ok () → Everywhere Node.Sound report.left) := by
  have first : ∀ c ∈ ([] : List (Call (HandlerName ε))), c.Fine σ := by simp
  refine handled_tolerated tame (fun g member => ours g (List.mem_filter.mp member).1) sound s first ?_
  cases element : n.isElement with
  | true => exact .inl element
  | false =>
    refine .inr (.inr fun g member => ?_)
    obtain ⟨among, serves⟩ := List.mem_filter.mp member
    cases ours g among with
    | builtin stands _ =>
      rw [serves_element ⟨_, stands⟩ serves] at element
      cases element
    | @extra e handler => exact ⟨e, handler⟩

theorem visitEach_tolerated {perform : HandlerName ε → Handler (HandlerName ε) σ}
    {visit : Node → Setting (HandlerName ε) σ → Report (HandlerName ε) σ Node Nat}
    (each : ∀ n s, Everywhere Node.Sound n →
      Tolerated perform (visit n s).setting.source (visit n s).calls (visit n s).outcome)
    {nodes : List Node} (sound : ∀ n ∈ nodes, Everywhere Node.Sound n) (s : Setting (HandlerName ε) σ) :
    Tolerated perform (visitEach visit nodes s).setting.source (visitEach visit nodes s).calls
      (visitEach visit nodes s).outcome := by
  induction nodes generalizing s with
  | nil => exact .done (by simp [visitEach]) 0
  | cons n rest ih =>
    have first := each n s (sound n List.mem_cons_self)
    rw [visitEach]
    generalize visit n s = report at first ⊢
    obtain ⟨outcome, left, after, calls⟩ := report
    cases outcome with
    | error f => exact first
    | ok count =>
      have others := ih (fun m later => sound m (List.mem_cons_of_mem _ later)) after
      exact (others.map (count + ·)).behind first.fine

theorem visit_tolerated (tame : Tame extras) (ours : ∀ g ∈ done, Ours g) {depth levels : Nat}
    (deep : depth + levels = maxDepth + 1) (sound : Everywhere Node.Sound n)
    (s : Setting (HandlerName ε) σ) :
    let report := visit (serving (HandlerName.perform extras) done) depth n s
    Tolerated (HandlerName.perform extras) report.setting.source report.calls report.outcome := by
  -- The levels that are left below a node get fewer, as for the walk itself.
  induction levels generalizing depth n s with
  | zero =>
    rw [visit_tooDeep (by omega)]
    exact .tooDeep (by simp)
  | succ levels ih =>
    obtain ⟨served, left⟩ := serving_tolerated tame ours sound s
    rw [visit, if_neg (by omega)]
    generalize serving (HandlerName.perform extras) done n s = report at served left ⊢
    obtain ⟨outcome, m, after, calls⟩ := report
    cases outcome with
    | error f => exact served.map fun _ => 0
    | ok _ =>
      have lower : depth + 1 + levels = maxDepth + 1 := by omega
      have inside := visitEach_tolerated (fun c t good => ih lower good t) (left rfl).inside after
      exact (inside.map (· + 1)).behind served.fine

end

def Registry.Stocked (r : Registry (HandlerName ε)) : Prop := ∃ done, r.Holds done ∧ ∀ g ∈ done, Ours g

namespace Registry.Stocked
variable {r : Registry (HandlerName ε)}

theorem empty : (Registry.empty : Registry (HandlerName ε)).Stocked := ⟨[], holds_empty, nofun⟩

theorem registered (stocked : r.Stocked) (name : Option String) :
    ({ r with registrant := name } : Registry (HandlerName ε)).Stocked := by
  obtain ⟨done, holds, each⟩ := stocked
  exact ⟨done, ⟨holds.count, holds.entries⟩, each⟩

theorem insert (stocked : r.Stocked) (key : String) (e : ε) : (r.insert key (.extra e)).Stocked := by
  obtain ⟨done, holds, each⟩ := stocked
  refine ⟨_, holds_insert holds key (.extra e), List.forall_mem_append.mpr ⟨each, ?_⟩⟩
  exact List.forall_mem_singleton.mpr (.extra rfl)

theorem insertAll (stocked : r.Stocked) (given : List (String × ε)) :
    (r.insertAll (given.map fun pair => (pair.1, .extra pair.2))).Stocked := by
  induction given generalizing r with
  | nil => exact stocked
  | cons pair rest ih => exact ih (stocked.insert pair.1 pair.2)

theorem registerAll (stocked : r.Stocked) (given : List (Value × Option ε)) :
    (r.registerAll (given.map fun pair => (pair.1, pair.2.map .extra))).2.Stocked := by
  induction given generalizing r with
  | nil => exact stocked
  | cons pair rest ih =>
    rw [List.map_cons, Registry.registerAll]
    cases registered : r.register pair.1 (pair.2.map .extra) with
    | error f => exact stocked
    | ok filled =>
      obtain ⟨key, _, _, given, rfl⟩ := insert_of_register registered
      obtain ⟨e, _, rfl⟩ := Option.map_eq_some_iff.mp given
      exact ih (stocked.insert key e)

end Registry.Stocked

-- An action that registers only extra handlers, on the way or in the end, and leaves a sound tree so.
structure Lodging
    (action : Action (HandlerName ε) σ (List (Value × Option (HandlerName ε)))) : Prop where
  inserts : ∀ ctx r, ctx.collecting = some r → ∃ given : List (String × ε),
    (action.exec ctx).2.collecting = some (r.insertAll (given.map fun pair => (pair.1, .extra pair.2)))
  returns : ∀ ctx pairs, (action.exec ctx).1 = .ok pairs → ∃ given : List (Value × Option ε),
    pairs = given.map fun pair => (pair.1, pair.2.map .extra)
  sound : ∀ ctx, Everywhere Node.Sound ctx.root → Everywhere Node.Sound (action.exec ctx).2.root

-- A plugin from elsewhere that shares the walk with the builtin ones.
def Guest (p : Plugin (HandlerName ε) σ) : Prop :=
  ∃ action, p.work.handlers? = some action ∧ Lodging action

section
variable {plugins : List (Plugin (HandlerName ε) σ)} {p : Plugin (HandlerName ε) σ}
  {r : Registry (HandlerName ε)} {ctx : Context (HandlerName ε) σ}

theorem offers_capability (s : Setting (HandlerName ε) σ) (member : p ∈ capabilityPlugins) :
    ∃ h, Offers s.metadata p h ∧ p.name = h.plugin ∧ p.isBatched = true := by
  simp only [capabilityPlugins_eq, List.mem_cons, List.not_mem_nil, or_false] at member
  rcases member with rfl | rfl | rfl
  · exact ⟨styleHandler s, offers_style s 10, rfl, rfl⟩
  · exact ⟨.layout, offers_fixed "layout-capability" 20 .layout, rfl, rfl⟩
  · exact ⟨.media, offers_fixed "media-capability" 100 .media, rfl, rfl⟩

theorem collect_stocked (known : p ∈ capabilityPlugins ∨ Guest p) (stocked : r.Stocked)
    (sound : Everywhere Node.Sound ctx.root) :
    (collect p r ctx).2.1.Stocked ∧ Everywhere Node.Sound (collect p r ctx).2.2.root := by
  rcases known with member | ⟨action, given, lodging⟩
  · obtain ⟨h, offers, name, batched⟩ := offers_capability ctx.toSetting member
    obtain ⟨done, holds, each⟩ := stocked
    obtain ⟨filled, g, collected, stands, owner, held⟩ := collect_offered offers batched holds rfl
    have named : p.name ≠ "" := by
      rw [name]
      cases h <;> simp [CapabilityHandler.plugin]
    rw [collected]
    refine ⟨⟨_, held, List.forall_mem_append.mpr ⟨each, List.forall_mem_singleton.mpr ?_⟩⟩, sound⟩
    exact .builtin stands ((owner named).trans name)
  · let start : Context (HandlerName ε) σ := { ctx with collecting := some { r with registrant := some p.name } }
    obtain ⟨brought, inserted⟩ := lodging.inserts start _ rfl
    have kept := lodging.sound start sound
    have filled := (stocked.registered (some p.name)).insertAll brought
    have returns := lodging.returns start
    rcases ran : action.exec start with ⟨result, after⟩
    rw [ran] at inserted kept returns
    cases result with
    | error f =>
      rw [collect_of_error given inserted ran]
      exact ⟨filled.registered none, kept⟩
    | ok pairs =>
      obtain ⟨offered, rfl⟩ := returns pairs rfl
      rw [collect_of_ok given inserted ran, Registry.mapping_map]
      exact ⟨(filled.registerAll _).registered none, kept⟩

theorem gather_stocked (known : ∀ p ∈ plugins, p ∈ capabilityPlugins ∨ Guest p) (stocked : r.Stocked)
    (sound : Everywhere Node.Sound ctx.root) :
    Everywhere Node.Sound ((gather plugins r).exec ctx).2.root ∧
      ∀ filled, ((gather plugins r).exec ctx).1 = .ok filled → filled.Stocked := by
  induction plugins generalizing r ctx with
  | nil =>
    refine ⟨sound, ?_⟩
    rintro _ ⟨⟩
    exact stocked
  | cons p rest ih =>
    obtain ⟨filled, kept⟩ := collect_stocked (known p List.mem_cons_self) stocked sound
    rcases collected : collect p r ctx with ⟨result, r, middle⟩
    rw [collected] at filled kept
    cases result with
    | error f =>
      rw [exec_gather_error collected]
      exact ⟨kept, nofun⟩
    | ok _ =>
      rw [exec_gather_ok collected]
      exact ih (fun q later => known q (List.mem_cons_of_mem _ later)) filled kept

theorem flush_visits (perform : HandlerName ε → Handler (HandlerName ε) σ)
    {done : List (Registration (HandlerName ε))} (holds : r.Holds done) (some : done ≠ [])
    (ctx : Context (HandlerName ε) σ) :
    ((flush perform r).exec ctx).1 =
      (visit (serving perform done) 0 ctx.root ctx.toSetting).outcome.map fun _ => () := by
  have count : r.count ≠ 0 := by
    rw [holds.count]
    exact fun none => some (List.eq_nil_of_length_eq_zero none)
  unfold flush
  rw [if_neg count, Action.exec_bind, exec_run_visit perform holds some ctx]
  cases (visit (serving perform done) 0 ctx.root ctx.toSetting).outcome <;> rfl

theorem run_tolerated {extras : ε → Handler (HandlerName ε) σ} (tame : Tame extras) (stocked : r.Stocked)
    (sound : Everywhere Node.Sound ctx.root) :
    ∃ outcome after,
      (run (recorded (HandlerName.perform extras)) r).exec ctx.recording = (outcome, after) ∧
      ((flush (HandlerName.perform extras) r).exec ctx).1 = outcome.map (fun _ => ()) ∧
      Tolerated (HandlerName.perform extras) after.source after.shared.2 outcome := by
  obtain ⟨done, holds, ours⟩ := stocked
  by_cases none : r.count = 0
  · refine ⟨.ok 0, ctx.recording, exec_run_idle _ none _, ?_, .done (fun c called => ?_) 0⟩
    · unfold flush
      rw [if_pos none]
      rfl
    · exact absurd called List.not_mem_nil
  · have some : done ≠ [] := by
      rintro rfl
      exact none holds.count
    have told := visit_tolerated tame ours (Nat.zero_add (maxDepth + 1)) sound ctx.toSetting
    have noted := visit_recorded (HandlerName.perform extras) done (Nat.zero_add (maxDepth + 1)) ctx.root
      ctx.toSetting []
    have recording := exec_run_visit (recorded (HandlerName.perform extras)) holds some ctx.recording
    have start : visit (serving (recorded (HandlerName.perform extras)) done) 0 ctx.recording.root
        ctx.recording.toSetting = _ := noted
    rw [start] at recording
    exact ⟨_, _, recording, flush_visits (HandlerName.perform extras) holds some ctx, told⟩

-- Every tree of markup, every setting and every list of the builtin capability plugins and such from
-- elsewhere: unless a plugin from elsewhere refuses to register, there is one walk, in which the
-- handlers for layout and media never fail, and the one for styles fails just for a text that a handler
-- from elsewhere has put in the place of an element.
theorem replacements_tolerated {extras : ε → Handler (HandlerName ε) σ} (tame : Tame extras)
    (known : ∀ p ∈ plugins, p ∈ capabilityPlugins ∨ Guest p) {mode : StyleMode} {a : Ast}
    (texts : Everywhere (fun c : Ast => c.head.attributes.Texts) a) {nodes : List Node}
    (converted : nodesOf mode a = .ok nodes) (tree : ctx.root = Node.root.withChildren nodes) :
    (∃ f after, (gather plugins .empty).exec ctx = (.error f, after) ∧
      (phase (HandlerName.perform extras) plugins .empty).exec ctx = (.error f, after)) ∨
    ∃ r middle outcome after, (gather plugins .empty).exec ctx = (.ok r, middle) ∧
      (run (recorded (HandlerName.perform extras)) r).exec middle.recording = (outcome, after) ∧
      ((phase (HandlerName.perform extras) plugins .empty).exec ctx).1 = outcome.map (fun _ => ()) ∧
      Tolerated (HandlerName.perform extras) after.source after.shared.2 outcome := by
  have batched : ∀ p ∈ plugins, p.isBatched = true := by
    intro p member
    rcases known p member with builtin | ⟨action, given, _⟩
    · obtain ⟨_, _, _, batched⟩ := offers_capability ctx.toSetting builtin
      exact batched
    · exact Option.isSome_iff_exists.mpr ⟨action, given⟩
  have sound : Everywhere Node.Sound ctx.root := by
    rw [tree]
    exact sound_converted texts converted
  obtain ⟨kept, filled⟩ := gather_stocked known .empty sound
  rw [phase_gathered batched, Action.exec_bind]
  rcases gathered : (gather plugins .empty).exec ctx with ⟨result, middle⟩
  rw [gathered] at kept filled
  cases result with
  | error f => exact .inl ⟨f, middle, rfl, rfl⟩
  | ok r =>
    obtain ⟨outcome, after, ran, same, tolerated⟩ := run_tolerated tame (filled r rfl) kept
    exact .inr ⟨r, middle, outcome, after, rfl, ran, same, tolerated⟩

end

def swap : Plugin (HandlerName Unit) Unit :=
  batched "swap" 5 (pure ()) (return [(.text "image", some (.extra ()))])

def putting (other : Node) (_ : Unit) : Handler (HandlerName Unit) Unit :=
  ExceptT.mk fun state => (.ok (some other), state)

def picture : Ast := .node .root [.node (.tag "img" []) []]

def gallery : Context (HandlerName Unit) Unit where
  ast := picture
  metadata := []
  source := .null
  metrics := none
  collecting := none
  shared := ()
  root := Node.root.withChildren (becomes .inline .nothing picture)

theorem tame_putting {other : Node} (sound : Everywhere Node.Sound other) : Tame (putting other) :=
  fun _ n s _ => ⟨some other, n, s, rfl, sound⟩

theorem swap_known : ∀ p ∈ swap :: capabilityPlugins, p ∈ capabilityPlugins ∨ Guest p := by
  refine List.forall_mem_cons.mpr ⟨.inr ⟨_, rfl, ?_⟩, fun p member => .inl member⟩
  refine ⟨fun ctx r given => ⟨[], given⟩, fun ctx pairs same => ?_, fun _ all => all⟩
  cases same
  exact ⟨[(.text "image", some ())], rfl⟩

def swapDone : List (Registration (HandlerName Unit)) := ⟨"image", "swap", .extra ()⟩ :: handlersDone false true

theorem swap_gathered :
    ∃ r, (gather (swap :: capabilityPlugins) .empty).exec gallery = (.ok r, gallery) ∧ r.Holds swapDone := by
  have none : (Registry.empty : Registry (HandlerName Unit)).Holds [] := Registry.holds_empty
  have first := Registry.holds_insertFor none "swap" "image" (.extra ())
  have second := Registry.holds_insertFor first "style-capability" elementKey (.builtin (.style false true))
  have third := Registry.holds_insertFor second "layout-capability" elementKey (.builtin .layout)
  have fourth := Registry.holds_insertFor third "media-capability" "image" (.builtin .media)
  refine ⟨_, ?_, fourth⟩
  rw [capabilityPlugins_eq]
  refine (exec_gather_ok (collect_single (p := swap) rfl (show "image" ≠ "" by decide) fun _ => rfl)).trans ?_
  refine (exec_gather_ok (collect_offers (offers_style gallery.toSetting 10) rfl _ rfl)).trans ?_
  refine (exec_gather_ok (collect_offers (offers_fixed _ 20 .layout) rfl _ rfl)).trans ?_
  exact exec_gather_ok (collect_offers (offers_fixed _ 100 .media) rfl _ rfl)

theorem visitEach_single {κ : Type} (visit : Node → Setting κ σ → Report κ σ Node Nat) (n : Node)
    (s : Setting κ σ) : (visitEach visit [n] s).outcome = (visit n s).outcome := by
  rw [visitEach]
  rcases visit n s with ⟨outcome, _, _, _⟩
  cases outcome <;> rfl

theorem gallery_visited (extras : Unit → Handler (HandlerName Unit) Unit) :
    ∃ image, becomes .inline .nothing picture = [image] ∧
      (visit (serving (HandlerName.perform extras) swapDone) 0 gallery.root gallery.toSetting).outcome =
        (visit (serving (HandlerName.perform extras) swapDone) 1 image gallery.toSetting).outcome.map
          (· + 1) := by
  obtain ⟨left, calls, root, kept⟩ : ∃ left calls,
      serving (HandlerName.perform extras) swapDone gallery.root gallery.toSetting =
        ⟨.ok (), left, gallery.toSetting, calls⟩ ∧ left.children = becomes .inline .nothing picture :=
    ⟨_, _, rfl, rfl⟩
  obtain ⟨image, only⟩ : ∃ image, becomes .inline .nothing picture = [image] := ⟨_, rfl⟩
  refine ⟨image, only, ?_⟩
  rw [visit, if_neg (by decide), root]
  dsimp only
  rw [kept, only, visitEach_single, Nat.zero_add]

theorem gallery_outcome (extras : Unit → Handler (HandlerName Unit) Unit) :
    ((phase (HandlerName.perform extras) (swap :: capabilityPlugins) .empty).exec gallery).1 =
      (visit (serving (HandlerName.perform extras) swapDone) 0 gallery.root gallery.toSetting).outcome.map
        fun _ => () := by
  have batched : ∀ p ∈ swap :: capabilityPlugins, p.isBatched = true := by
    simp [capabilityPlugins_eq, swap, Plugin.isBatched, batched]
  obtain ⟨r, gathered, holds⟩ := swap_gathered
  rw [phase_gathered batched, Action.exec_bind, gathered]
  exact flush_visits (HandlerName.perform extras) holds (List.cons_ne_nil _ _) gallery

def word : Node := .text ⟨.text "x", .null, .null, .null, .null⟩

theorem word_sound : Everywhere Node.Sound word := .of_childless rfl ⟨⟨⟨"x", rfl⟩, .inl rfl⟩, nofun⟩

theorem box_sound : Everywhere Node.Sound box := by
  refine everywhere_element.mpr ⟨⟨⟨⟨"box", by decide, rfl⟩, ⟨[], rfl⟩, nofun⟩, ?_⟩,
    List.forall_mem_singleton.mpr word_sound⟩
  rintro _ ⟨⟩
  exact ⟨⟨[], rfl, .inl rfl⟩, .inl rfl⟩

theorem picture_texts : Everywhere (fun c : Ast => c.head.attributes.Texts) picture := by
  refine everywhere_node.mpr ⟨nofun, List.forall_mem_singleton.mpr ?_⟩
  exact .of_childless rfl nofun

theorem box_visited : ∀ n ∈ becomes .inline .nothing picture,
    (visit (serving (HandlerName.perform (putting box)) swapDone) 1 n gallery.toSetting).outcome = .ok 2 := by
  intro n member
  obtain ⟨left, calls, served, kept⟩ : ∃ left calls,
      serving (HandlerName.perform (putting box)) swapDone n gallery.toSetting =
        ⟨.ok (), left, gallery.toSetting, calls⟩ ∧ left.children = [word] := by
    rw [List.mem_singleton.mp member]
    exact ⟨_, _, rfl, rfl⟩
  rw [visit, if_neg (by decide), served]
  dsimp only
  rw [kept, visitEach_single, visit, if_neg (by decide)]
  rfl

theorem box_tolerated :
    Tame (putting box) ∧ (∀ p ∈ swap :: capabilityPlugins, p ∈ capabilityPlugins ∨ Guest p) ∧
      Everywhere (fun c : Ast => c.head.attributes.Texts) picture ∧
      nodesOf .inline picture = .ok (becomes .inline .nothing picture) ∧
      gallery.root = Node.root.withChildren (becomes .inline .nothing picture) ∧
      ((phase (HandlerName.perform (putting box)) (swap :: capabilityPlugins) .empty).exec gallery).1 = .ok () ∧
      ∃ r middle outcome after, (gather (swap :: capabilityPlugins) .empty).exec gallery = (.ok r, middle) ∧
        (run (recorded (HandlerName.perform (putting box))) r).exec middle.recording = (outcome, after) ∧
        Tolerated (HandlerName.perform (putting box)) after.source after.shared.2 outcome := by
  have given : nodesOf .inline picture = .ok (becomes .inline .nothing picture) := rfl
  have tree : gallery.root = Node.root.withChildren (becomes .inline .nothing picture) := rfl
  obtain ⟨image, only, visited⟩ := gallery_visited (putting box)
  refine ⟨tame_putting box_sound, swap_known, picture_texts, given, tree, ?_, ?_⟩
  · rw [gallery_outcome, visited, box_visited image (by simp [only])]
    rfl
  · have both := replacements_tolerated (tame_putting box_sound) swap_known picture_texts given tree
    obtain ⟨r, gathered, _⟩ := swap_gathered
    rcases both with ⟨f, after, refused, _⟩ | ⟨r, middle, outcome, after, filled, ran, _, tolerated⟩
    · rw [gathered] at refused
      cases refused
    · exact ⟨r, middle, outcome, after, filled, ran, tolerated⟩

theorem word_refused :
    Tame (putting word) ∧ (∀ p ∈ swap :: capabilityPlugins, p ∈ capabilityPlugins ∨ Guest p) ∧
      Everywhere (fun c : Ast => c.head.attributes.Texts) picture ∧
      nodesOf .inline picture = .ok (becomes .inline .nothing picture) ∧
      gallery.root = Node.root.withChildren (becomes .inline .nothing picture) ∧
      ((phase (HandlerName.perform (putting word)) (swap :: capabilityPlugins) .empty).exec gallery).1 =
        .error (.plugin (.text "style-capability") (.text "'TextNode' object has no attribute 'source_attrs'")
          "capability" .null (some CapabilityHandler.noAttributes)) := by
  obtain ⟨image, only, visited⟩ := gallery_visited (putting word)
  have refused : ∀ n ∈ becomes .inline .nothing picture,
      (visit (serving (HandlerName.perform (putting word)) swapDone) 1 n gallery.toSetting).outcome =
        .error (Plugin.blame "style-capability" "capability" .null CapabilityHandler.noAttributes) := by
    intro n member
    rw [List.mem_singleton.mp member, visit, if_neg (by decide)]
    rfl
  refine ⟨tame_putting word_sound, swap_known, picture_texts, rfl, rfl, ?_⟩
  rw [gallery_outcome, visited, refused image (by simp [only])]
  rfl

end Dispatch
end SemanticMarkup
