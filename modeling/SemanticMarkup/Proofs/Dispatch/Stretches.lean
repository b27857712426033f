import Mathlib.Data.List.Chain
import SemanticMarkup.Proofs.Pipeline.Resolution

namespace SemanticMarkup.Dispatch

-- Plugins of the capability phase that have their turn together: such with handlers, one behind the
-- other, which share a walk, or one without handlers.
inductive Stretch (κ σ : Type) where
  | shared (batch : List (Plugin κ σ))
  | alone (p : Plugin κ σ)

namespace Stretch
variable {κ σ κ' σ' : Type}

def plugins : Stretch κ σ → List (Plugin κ σ)
  | .shared batch => batch
  | .alone p => [p]

def isShared : Stretch κ σ → Bool
  | .shared _ => true
  | .alone _ => false

def map (f : Plugin κ σ → Plugin κ' σ') : Stretch κ σ → Stretch κ' σ'
  | .shared batch => .shared (batch.map f)
  | .alone p => .alone (f p)

def Even : Stretch κ σ → Prop
  | .shared batch => batch ≠ [] ∧ ∀ p ∈ batch, p.isBatched = true
  | .alone p => p.isBatched = false

-- The plugins in their order, cut so that no two stretches that meet could share one walk.
structure Divides (plugins : List (Plugin κ σ)) (stretches : List (Stretch κ σ)) : Prop where
  whole : stretches.flatMap Stretch.plugins = plugins
  even : ∀ s ∈ stretches, s.Even
  maximal : stretches.IsChain fun a b => ¬(a.isShared = true ∧ b.isShared = true)

def divide : List (Plugin κ σ) → List (Stretch κ σ)
  | [] => []
  | p :: rest =>
    if p.isBatched then
      match divide rest with
      | .shared batch :: others => .shared (p :: batch) :: others
      | others => .shared [p] :: others
    else .alone p :: divide rest

theorem divides_alone {p : Plugin κ σ} {rest : List (Plugin κ σ)} {stretches : List (Stretch κ σ)}
    (alone : p.isBatched = false) (divides : Divides rest stretches) :
    Divides (p :: rest) (.alone p :: stretches) where
  whole := congrArg (p :: ·) divides.whole
  even s member := by
    rcases List.mem_cons.mp member with rfl | later
    · exact alone
    · exact divides.even s later
  maximal := List.isChain_cons.mpr ⟨fun _ _ both => Bool.noConfusion both.1, divides.maximal⟩

theorem divides_shared {p : Plugin κ σ} {rest : List (Plugin κ σ)} {stretches : List (Stretch κ σ)}
    (batched : p.isBatched = true) (divides : Divides rest stretches)
    (apart : ∀ s ∈ stretches.head?, s.isShared = false) :
    Divides (p :: rest) (.shared [p] :: stretches) where
  whole := congrArg (p :: ·) divides.whole
  even s member := by
    rcases List.mem_cons.mp member with rfl | later
    · exact ⟨List.cons_ne_nil _ _, fun q only => by rwa [List.mem_singleton.mp only]⟩
    · exact divides.even s later
  maximal := by
    refine List.isChain_cons.mpr ⟨fun s first both => ?_, divides.maximal⟩
    simp [apart s first] at both

theorem divides_joined {p : Plugin κ σ} {rest batch : List (Plugin κ σ)}
    {others : List (Stretch κ σ)} (batched : p.isBatched = true)
    (divides : Divides rest (.shared batch :: others)) :
    Divides (p :: rest) (.shared (p :: batch) :: others) where
  whole := congrArg (p :: ·) divides.whole
  even s member := by
    rcases List.mem_cons.mp member with rfl | later
    · refine ⟨List.cons_ne_nil _ _, fun q among => ?_⟩
      rcases List.mem_cons.mp among with rfl | behind
      · exact batched
      · exact (divides.even _ List.mem_cons_self).2 q behind
    · exact divides.even s (List.mem_cons_of_mem _ later)
  maximal := List.isChain_cons.mpr (List.isChain_cons.mp divides.maximal)

theorem divides_divide (plugins : List (Plugin κ σ)) : Divides plugins (divide plugins) := by
  induction plugins with
  | nil => exact ⟨rfl, nofun, .nil⟩
  | cons p rest ih =>
    rw [divide]
    cases batched : p.isBatched with
    | false => exact divides_alone batched ih
    | true =>
      rw [if_pos rfl]
      split
      · rename_i batch others same
        rw [same] at ih
        exact divides_joined batched ih
      · rename_i apart
        refine divides_shared batched ih fun s first => ?_
        cases s with
        | alone q => rfl
        | shared batch =>
          obtain ⟨others, same⟩ := List.head?_eq_some_iff.mp first
          exact absurd same (apart batch others)

theorem Divides.map {plugins : List (Plugin κ σ)} {stretches : List (Stretch κ σ)}
    (divides : Divides plugins stretches) {f : Plugin κ σ → Plugin κ' σ'}
    (same : ∀ p, (f p).isBatched = p.isBatched) :
    Divides (plugins.map f) (stretches.map (Stretch.map f)) where
  whole := by
    have each : Stretch.plugins ∘ Stretch.map f = List.map f ∘ Stretch.plugins := by
      funext s
      cases s <;> rfl
    rw [← divides.whole, List.flatMap_map, List.map_flatMap]
    exact congrArg (stretches.flatMap ·) each
  even s member := by
    obtain ⟨old, among, rfl⟩ := List.mem_map.mp member
    have even := divides.even old among
    cases old with
    | alone p => exact (same p).trans even
    | shared batch =>
      refine ⟨fun none => even.1 (List.map_eq_nil_iff.mp none), fun q behind => ?_⟩
      obtain ⟨p, before, rfl⟩ := List.mem_map.mp behind
      exact (same p).trans (even.2 p before)
  maximal := by
    have shape : ∀ s : Stretch κ σ, (s.map f).isShared = s.isShared := by
      intro s
      cases s <;> rfl
    refine (List.isChain_map (Stretch.map f)).mpr (divides.maximal.imp fun a b apart => ?_)
    rwa [shape, shape]

end Stretch

section
variable {κ σ : Type}

def gather : List (Plugin κ σ) → Registry κ → Action κ σ (Registry κ)
  | [], r => return r
  | p :: rest, r => do
    let ctx ← get
    match collect p r ctx with
    | (.ok (), r, ctx) =>
      set ctx
      gather rest r
    | (.error f, _, ctx) =>
      set ctx
      throw f

-- What plugins that share a walk have for their turn is the handlers that they have registered
-- themselves; a plugin without handlers is run.
def Stretch.run (perform : κ → Handler κ σ) : Stretch κ σ → Action κ σ Unit
  | .shared batch => do
    let r ← gather batch .empty
    flush perform r
  | .alone p => p.run

def runAll (perform : κ → Handler κ σ) : List (Stretch κ σ) → Action κ σ Unit
  | [] => pure ()
  | s :: rest => do
    s.run perform
    runAll perform rest

variable {perform : κ → Handler κ σ} {plugins batch rest : List (Plugin κ σ)} {p : Plugin κ σ}
  {r filled : Registry κ} {ctx after : Context κ σ}

theorem exec_gather_ok {middle : Context κ σ}
    (collected : collect p r ctx = (.ok (), filled, middle)) :
    (gather (p :: rest) r).exec ctx = (gather rest filled).exec middle := by
  rw [gather, Action.exec_get_bind, collected]
  rfl

theorem exec_gather_error {f : Fault} (collected : collect p r ctx = (.error f, filled, after)) :
    (gather (p :: rest) r).exec ctx = (.error f, after) := by
  rw [gather, Action.exec_get_bind, collected]
  rfl

theorem phase_batch (batched : ∀ p ∈ batch, p.isBatched = true) (r : Registry κ) :
    phase perform (batch ++ rest) r = gather batch r >>= phase perform rest := by
  induction batch generalizing r with
  | nil => exact (pure_bind r (phase perform rest)).symm
  | cons p others ih =>
    rw [List.cons_append, phase, if_pos (batched p List.mem_cons_self), gather, bind_assoc]
    refine bind_congr fun ctx => ?_
    rcases collect p r ctx with ⟨result, filled, after⟩
    cases result with
    | error f => rfl
    | ok _ =>
      dsimp only
      rw [bind_assoc]
      exact bind_congr fun _ => ih (fun q later => batched q (List.mem_cons_of_mem _ later)) filled

theorem phase_gathered (batched : ∀ p ∈ batch, p.isBatched = true) (r : Registry κ) :
    phase perform batch r = gather batch r >>= flush perform := by
  have whole : phase perform (batch ++ []) r = gather batch r >>= phase perform [] := phase_batch batched r
  rwa [List.append_nil] at whole

end

section
variable {ε σ : Type} {perform : HandlerName ε → Handler (HandlerName ε) σ}
  {plugins batch rest : List (Plugin (HandlerName ε) σ)} {r filled : Registry (HandlerName ε)}
  {ctx after : Context (HandlerName ε) σ}
open Transformer

theorem gathered_idle (idle : r.registrant = none)
    (gathered : (gather batch r).exec ctx = (.ok filled, after)) : filled.registrant = none := by
  induction batch generalizing r ctx with
  | nil =>
    cases gathered
    exact idle
  | cons p others ih =>
    have still := collect_registrant (p := p) idle ctx
    rcases collected : collect p r ctx with ⟨result, next, middle⟩
    rw [collected] at still
    cases result with
    | error f =>
      rw [exec_gather_error collected] at gathered
      cases gathered
    | ok _ =>
      rw [exec_gather_ok collected] at gathered
      exact ih still gathered

theorem phase_flushed (apart : ∀ p ∈ rest.head?, p.isBatched = false) (idle : r.registrant = none) :
    phase perform rest r = (do flush perform r; phase perform rest .empty) := by
  have nothing : flush perform (.empty : Registry (HandlerName ε)) = pure () := rfl
  cases rest with
  | nil =>
    rw [phase, phase, nothing]
    exact (bind_pure (flush perform r)).symm
  | cons p others =>
    have alone : ¬p.isBatched = true := by simp [apart p rfl]
    rw [phase, if_neg alone, phase, if_neg alone, nothing, pure_bind, clear_eq idle, clear_eq rfl]

theorem exec_phase_shared (batched : ∀ p ∈ batch, p.isBatched = true)
    (apart : ∀ p ∈ rest.head?, p.isBatched = false) (ctx : Context (HandlerName ε) σ) :
    (phase perform (batch ++ rest) .empty).exec ctx =
      (do (Stretch.shared batch).run perform; phase perform rest .empty).exec ctx := by
  rw [phase_batch batched, Stretch.run, bind_assoc, Action.exec_bind, Action.exec_bind]
  rcases gathered : (gather batch .empty).exec ctx with ⟨result, after⟩
  cases result with
  | error f => rfl
  | ok filled =>
    exact congrArg (Action.exec · after) (phase_flushed apart (gathered_idle rfl gathered))

theorem phase_stretches {stretches : List (Stretch (HandlerName ε) σ)}
    (divides : Stretch.Divides plugins stretches) (ctx : Context (HandlerName ε) σ) :
    (phase perform plugins .empty).exec ctx = (runAll perform stretches).exec ctx := by
  induction stretches generalizing plugins ctx with
  | nil =>
    obtain rfl : plugins = [] := divides.whole.symm
    rfl
  | cons s others ih =>
    obtain ⟨meets, maximal⟩ := List.isChain_cons.mp divides.maximal
    have even := divides.even s List.mem_cons_self
    have tail : Stretch.Divides (others.flatMap Stretch.plugins) others :=
      ⟨rfl, fun t later => divides.even t (List.mem_cons_of_mem _ later), maximal⟩
    rw [← divides.whole, List.flatMap_cons]
    have step : (phase perform (s.plugins ++ others.flatMap Stretch.plugins) .empty).exec ctx =
        (do s.run perform; phase perform (others.flatMap Stretch.plugins) .empty).exec ctx := by
      cases s with
      | alone p =>
        have nothing : flush perform (.empty : Registry (HandlerName ε)) = pure () := rfl
        have alone : ¬p.isBatched = true := by simp [show p.isBatched = false from even]
        show (phase perform (p :: others.flatMap Stretch.plugins) .empty).exec ctx = _
        rw [phase, if_neg alone, nothing, pure_bind, clear_eq rfl, Stretch.run]
      | shared batch =>
        refine exec_phase_shared even.2 (fun p first => ?_) ctx
        -- What comes behind plugins that share a walk begins with one that has no handlers.
        cases others with
        | nil => cases first
        | cons t more =>
          cases t with
          | alone q =>
            cases first
            exact divides.even (.alone p) (List.mem_cons_of_mem _ List.mem_cons_self)
          | shared next => exact absurd ⟨rfl, rfl⟩ (meets _ rfl)
    rw [step, runAll, Action.exec_bind, Action.exec_bind]
    rcases (s.run perform).exec ctx with ⟨result, after⟩
    cases result with
    | error f => rfl
    | ok _ => exact ih tail after

end

end SemanticMarkup.Dispatch
