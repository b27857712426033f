import SemanticMarkup.Proofs.Attribution.Batch
import SemanticMarkup.Proofs.Attribution.Soundness

namespace SemanticMarkup
open Dispatch Passes
variable {ε σ : Type} {plugins : List (Plugin (HandlerName ε) σ)}

def Context.watched (ctx : Context (HandlerName ε) σ) : Context (SignedName ε σ) (Noted ε σ) :=
  { ctx with collecting := none, shared := (ctx.shared, []) }

theorem Context.plain_watched {ctx : Context (HandlerName ε) σ} (idle : ctx.collecting = none) :
    ctx.watched.plain = ctx := by
  show ({ ctx with collecting := none } : Context (HandlerName ε) σ) = ctx
  rw [← idle]

namespace Transformer
variable {t : Transformer ε σ}

theorem runEach_tracks {batch : List (Plugin (HandlerName ε) σ)} (among : ∀ p ∈ batch, p ∈ plugins)
    (ctx : Context (SignedName ε σ) (Noted ε σ)) :
    Tracks plugins (runEach batch) (runEach (batch.map Plugin.noted)) ctx := by
  induction batch generalizing ctx with
  | nil => exact .pure () ctx
  | cons p rest ih =>
    rw [List.map_cons, runEach, runEach]
    exact (run_tracks (among p List.mem_cons_self) ctx).bind fun _ passed =>
      ih (fun q later => among q (List.mem_cons_of_mem _ later)) passed

theorem inPhase_noted (plugins : List (Plugin (HandlerName ε) σ)) (phase : Phase) :
    Resolve.inPhase (plugins.map Plugin.noted) phase =
      (Resolve.inPhase plugins phase).map Plugin.noted := by
  unfold Resolve.inPhase
  rw [List.filter_map]
  rfl

theorem runPhase_tracks (sound : ∀ p ∈ t.plugins, p.Sound) (phase : Phase)
    (ctx : Context (SignedName ε σ) (Noted ε σ)) :
    Tracks t.plugins (t.runPhase phase) (t.noted.runPhase phase) ctx := by
  have among : ∀ p ∈ Resolve.inPhase t.plugins phase, p ∈ t.plugins :=
    fun p member => (List.mem_filter.mp member).1
  have placed : ∀ p ∈ Resolve.inPhase t.plugins phase, p.phase = phase :=
    fun p member => by simpa using (List.mem_filter.mp member).2
  have noted : Resolve.inPhase t.noted.plugins phase =
      (Resolve.inPhase t.plugins phase).map Plugin.noted := inPhase_noted t.plugins phase
  unfold runPhase
  rw [noted]
  cases phase with
  | capability =>
    exact phase_tracks among placed (fun p member => sound p (among p member))
      Registry.owned_empty ctx
  | _ => exact runEach_tracks among ctx

theorem runPhases_tracks (sound : ∀ p ∈ t.plugins, p.Sound) (phases : List Phase)
    (ctx : Context (SignedName ε σ) (Noted ε σ)) :
    Tracks t.plugins (t.runPhases phases) (t.noted.runPhases phases) ctx := by
  induction phases generalizing ctx with
  | nil => exact .pure () ctx
  | cons phase rest ih =>
    rw [runPhases, runPhases]
    exact (runPhase_tracks sound phase ctx).bind fun _ after => ih after

-- A run does the same when its calls are written down, and the calls in their order are all that
-- it does. When a plugin raises a fault, by itself, while it registers, or by one of its handlers,
-- that call is the last one, and the run fails: with the fault itself if that belongs to the
-- transform, and otherwise with a fault that names the plugin, its phase and the source.
theorem faults_attributed (t : Transformer ε σ) (sound : ∀ p ∈ t.plugins, p.Sound)
    (ctx : Context (HandlerName ε) σ) (idle : ctx.collecting = none) :
    ∃ result after,
      t.noted.run.exec ctx.watched = (result, after) ∧ t.run.exec ctx = (result, after.plain) ∧
        Follows ctx after.shared.2 after.plain ∧
        Aborts t.plugins after.shared.2 result after.plain := by
  obtain ⟨result, after, events, noted, ran, told⟩ := runPhases_tracks sound Phase.all ctx.watched
  have plain := Context.plain_watched idle
  obtain rfl : after.shared.2 = events := told.log
  rw [plain] at ran
  refine ⟨result, after, noted, ran, ?_, told.aborts⟩
  rw [← plain]
  exact told.follows

def patient : Plugin (HandlerName Bool) Unit :=
  batched "patient" 10 (pure ()) (return [(.text textKey, some (.extra false))])

def fussy : Plugin (HandlerName Bool) Unit :=
  batched "fussy" 20 (pure ()) do
    Action.register (.text textKey) (some (.extra true))
    return []

def refusing : Transformer Bool Unit where
  options := ⟨.flag true, .flag false, .inline, .text Stylesheet.defaultRoot, none, .flag true, .flag false⟩
  plugins := [patient, fussy, plain "later" .finalize 10 (pure ())]
  extras refuses := ExceptT.mk fun state =>
    (if refuses then .error (.value "no texts") else .ok none, state)

def lone : Context (HandlerName Bool) Unit :=
  ⟨⟨.node .root [], [], .text "x", some .empty, none, ()⟩, .text ⟨.text "x", .null, .null, .null, .null⟩⟩

theorem refusing_sound : ∀ p ∈ refusing.plugins, p.Sound := by
  intro p member
  simp only [refusing, List.mem_cons, List.not_mem_nil, or_false] at member
  rcases member with rfl | rfl | rfl
  · exact sound_batched (by decide) (Action.registers_of_kept fun _ => rfl)
  · exact sound_batched (by decide)
      ((Action.registers_register _ _).bind fun _ => Action.registers_of_kept fun _ => rfl)
  · exact sound_plain (by decide)

def gathered : Registry (SignedName Bool Unit) :=
  ⟨[(textKey, [⟨0, "patient", .sign patient (.extra false)⟩, ⟨1, "fussy", .sign fussy (.extra true)⟩])],
    2, none⟩

def refusal : Fault :=
  .plugin (.text "fussy") (.text "no texts") "capability" (.text "x") (some (.value "no texts"))

def awaiting : Context (SignedName Bool Unit) (Noted Bool Unit) :=
  (collect fussy.noted (collect patient.noted .empty lone.watched).2.1
    (collect patient.noted .empty lone.watched).2.2).2.2

theorem refused :
    ∃ after, refusing.noted.run.exec lone.watched = (.error refusal, after) ∧
      (after.shared.2.map fun e => e.plugin.name) = ["patient", "fussy", "patient", "fussy"] := by
  have walked : ∃ left after, walk refusing.noted.perform gathered awaiting.root [] awaiting.toSetting 0 =
      (.error refusal, left, after) ∧
        (after.shared.2.map fun e => e.plugin.name) = ["patient", "fussy", "patient", "fussy"] :=
    ⟨_, _, walk_of_error 0 (by decide) rfl, rfl⟩
  obtain ⟨left, after, failed, names⟩ := walked
  have flushed : (flush refusing.noted.perform gathered).exec awaiting =
      (.error refusal, after.withRoot left) := by
    rw [exec_flush _ _ (by decide), failed]
    rfl
  have phased : (refusing.noted.runPhase .capability).exec lone.watched =
      (flush refusing.noted.perform gathered).exec awaiting := rfl
  refine ⟨after.withRoot left, ?_, names⟩
  have first : (refusing.noted.runPhase .normalize).exec lone.watched = (.ok (), lone.watched) := rfl
  have second : (refusing.noted.runPhase .structuring).exec lone.watched = (.ok (), lone.watched) := rfl
  unfold Transformer.run Phase.all
  rw [runPhases, Action.exec_bind, first]
  dsimp only
  rw [runPhases, Action.exec_bind, second]
  dsimp only
  rw [runPhases, Action.exec_bind, phased, flushed]

def blunt : Transformer Bool Unit where
  options := refusing.options
  plugins := [plain "blunt" .structuring 10 (throw (.value "no markup")), patient]
  extras := refusing.extras

theorem blunt_sound : ∀ p ∈ blunt.plugins, p.Sound := by
  intro p member
  simp only [blunt, List.mem_cons, List.not_mem_nil, or_false] at member
  rcases member with rfl | rfl
  · exact sound_plain (by decide)
  · exact sound_batched (by decide) (Action.registers_of_kept fun _ => rfl)

def bluntRefusal : Fault :=
  .plugin (.text "blunt") (.text "no markup") "structure" (.text "x") (some (.value "no markup"))

theorem bluntly_refused :
    ∃ after, blunt.noted.run.exec lone.watched = (.error bluntRefusal, after) ∧
      (after.shared.2.map fun e => e.plugin.name) = ["blunt"] :=
  ⟨_, rfl, rfl⟩

theorem refusing_attributed :
    ((∀ p ∈ refusing.plugins, p.Sound) ∧ lone.collecting = none ∧
      ∃ after, refusing.noted.run.exec lone.watched = (.error refusal, after) ∧
        (after.shared.2.map fun e => e.plugin.name) = ["patient", "fussy", "patient", "fussy"] ∧
        refusing.run.exec lone = (.error refusal, after.plain) ∧
        Follows lone after.shared.2 after.plain ∧
        Aborts refusing.plugins after.shared.2 (.error refusal : Except Fault Unit) after.plain) ∧
    (∀ p ∈ blunt.plugins, p.Sound) ∧
      ∃ after, blunt.noted.run.exec lone.watched = (.error bluntRefusal, after) ∧
        (after.shared.2.map fun e => e.plugin.name) = ["blunt"] ∧
        blunt.run.exec lone = (.error bluntRefusal, after.plain) ∧
        Follows lone after.shared.2 after.plain ∧
        Aborts blunt.plugins after.shared.2 (.error bluntRefusal : Except Fault Unit) after.plain := by
  constructor
  · obtain ⟨result, after, noted, ran, follows, aborts⟩ :=
      faults_attributed refusing refusing_sound lone rfl
    obtain ⟨last, failed, names⟩ := refused
    cases failed.symm.trans noted
    exact ⟨refusing_sound, rfl, after, noted, names, ran, follows, aborts⟩
  · obtain ⟨result, after, noted, ran, follows, aborts⟩ :=
      faults_attributed blunt blunt_sound lone rfl
    obtain ⟨last, failed, names⟩ := bluntly_refused
    cases failed.symm.trans noted
    exact ⟨blunt_sound, after, noted, names, ran, follows, aborts⟩

end Transformer
end SemanticMarkup
