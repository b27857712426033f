import SemanticMarkup.Proofs.Pipeline.Batching

namespace SemanticMarkup
open Passes Dispatch

namespace Resolve
variable {α κ σ : Type}

-- What the order of plugins goes by: the phase, and the order within the phase.
structure Slot where
  phase : Phase
  order : Int
  deriving DecidableEq

def Slot.before (a b : Slot) : Bool :=
  a.phase.rank < b.phase.rank || (a.phase.rank == b.phase.rank && a.order ≤ b.order)

def slot (p : Plugin κ σ) : Slot := ⟨p.phase, p.order⟩

theorem rank_injective {a b : Phase} (same : a.rank = b.rank) : a = b := by
  cases a <;> cases b <;> simp [Phase.rank] at same ⊢

namespace Slot

theorem before_iff (a b : Slot) :
    a.before b = true ↔ a.phase.rank < b.phase.rank ∨ (a.phase.rank = b.phase.rank ∧ a.order ≤ b.order) := by
  simp [before]

theorem before_trans (a b c : Slot) (first : a.before b = true) (second : b.before c = true) :
    a.before c = true := by
  rw [before_iff] at *
  omega

theorem before_total (a b : Slot) : (a.before b || b.before a) = true := by
  rw [Bool.or_eq_true, before_iff, before_iff]
  omega

theorem before_antisymm {a b : Slot} (first : a.before b = true) (second : b.before a = true) :
    a = b := by
  rw [before_iff] at first second
  obtain ⟨phase, order⟩ := a
  obtain ⟨other, number⟩ := b
  have same : phase = other := rank_injective (by dsimp only at first second; omega)
  subst same
  exact congrArg _ (by dsimp only at first second; omega)

end Slot

-- The things of a list in the order of their slots, those of one slot in the order of the list.
structure StableOrdering (slot : α → Slot) (inserted ordered : List α) : Prop where
  members : ordered.Perm inserted
  sorted : ordered.Pairwise fun a b => (slot a).before (slot b) = true
  ties : ∀ place, (ordered.filter fun a => slot a = place) = inserted.filter fun a => slot a = place

theorem eq_of_ties {slot : α → Slot} {first second : List α}
    (sorted : first.Pairwise fun a b => (slot a).before (slot b) = true)
    (arranged : second.Pairwise fun a b => (slot a).before (slot b) = true)
    (ties : ∀ place, (first.filter fun a => slot a = place) = second.filter fun a => slot a = place) :
    first = second := by
  have found : ∀ a, a ∈ first ↔ a ∈ second := by
    intro a
    have own : ∀ list : List α, a ∈ list ↔ a ∈ list.filter fun b => slot b = slot a := by simp
    rw [own first, own second, ties]
  induction first generalizing second with
  | nil =>
    refine (List.eq_nil_iff_forall_not_mem.mpr fun a member => ?_).symm
    exact absurd ((found a).mpr member) List.not_mem_nil
  | cons a rest ih =>
    cases second with
    | nil => exact absurd ((found a).mp List.mem_cons_self) List.not_mem_nil
    | cons b others =>
      have least : ∀ c ∈ a :: rest, (slot a).before (slot c) = true := by
        intro c member
        rcases List.mem_cons.mp member with rfl | later
        · simpa using Slot.before_total (slot c) (slot c)
        · exact (List.pairwise_cons.mp sorted).1 c later
      have lowest : ∀ c ∈ b :: others, (slot b).before (slot c) = true := by
        intro c member
        rcases List.mem_cons.mp member with rfl | later
        · simpa using Slot.before_total (slot c) (slot c)
        · exact (List.pairwise_cons.mp arranged).1 c later
      have same : slot a = slot b := Slot.before_antisymm
        (least b ((found b).mpr List.mem_cons_self)) (lowest a ((found a).mp List.mem_cons_self))
      have heads := ties (slot b)
      simp only [List.filter_cons, same, decide_true, if_true, List.cons.injEq] at heads
      obtain ⟨rfl, _⟩ := heads
      have tails : ∀ place, (rest.filter fun c => slot c = place) =
          others.filter fun c => slot c = place := by
        intro place
        have both := ties place
        by_cases here : slot a = place
        · simpa [List.filter_cons, here] using both
        · simpa [List.filter_cons, here] using both
      refine congrArg _ (ih (List.pairwise_cons.mp sorted).2 (List.pairwise_cons.mp arranged).2 tails ?_)
      intro c
      have own : ∀ list : List α, c ∈ list ↔ c ∈ list.filter fun d => slot d = slot c := by simp
      rw [own rest, own others, tails]

def sorted (slot : α → Slot) (inserted : List α) : List α :=
  inserted.mergeSort fun a b => (slot a).before (slot b)

theorem stable_sorted (slot : α → Slot) (inserted : List α) :
    StableOrdering slot inserted (sorted slot inserted) := by
  have members : (sorted slot inserted).Perm inserted := List.mergeSort_perm _ _
  have arranged : (sorted slot inserted).Pairwise fun a b => (slot a).before (slot b) = true :=
    List.pairwise_mergeSort (fun a b c => Slot.before_trans (slot a) (slot b) (slot c))
      (fun a b => Slot.before_total (slot a) (slot b)) inserted
  refine ⟨members, arranged, fun place => ?_⟩
  have level : (inserted.filter fun a => slot a = place).Pairwise
      fun a b => (slot a).before (slot b) = true := by
    refine List.pairwise_of_forall_mem_list fun a left b right => ?_
    have one : slot a = place := by simpa using (List.mem_filter.mp left).2
    have two : slot b = place := by simpa using (List.mem_filter.mp right).2
    simpa [one, two] using Slot.before_total place place
  -- A part that is sorted already comes out of the sorting as it went in.
  have kept := (List.sublist_mergeSort (fun a b c => Slot.before_trans (slot a) (slot b) (slot c))
    (fun a b => Slot.before_total (slot a) (slot b)) level List.filter_sublist).filter
      fun a => slot a = place
  rw [List.filter_filter] at kept
  simp only [Bool.and_self] at kept
  exact (kept.eq_of_length (members.filter _).length_eq.symm).symm

theorem stable_iff {slot : α → Slot} {inserted ordered : List α} :
    StableOrdering slot inserted ordered ↔ ordered = sorted slot inserted := by
  have stable := stable_sorted slot inserted
  constructor
  · intro other
    exact eq_of_ties other.sorted stable.sorted fun place =>
      (other.ties place).trans (stable.ties place).symm
  · rintro rfl
    exact stable

theorem flatMap_inPhase {plugins : List (Plugin κ σ)}
    (sorted : plugins.Pairwise fun a b => (slot a).before (slot b) = true) :
    Phase.all.flatMap (inPhase plugins) = plugins := by
  refine @eq_of_ties _ slot _ _ ?_ sorted fun place => ?_
  · refine List.pairwise_flatMap.mpr ⟨fun phase _ => sorted.sublist List.filter_sublist, ?_⟩
    have ranks : Phase.all.Pairwise fun a b => a.rank < b.rank := by decide
    refine ranks.imp fun {earlier later} less p left q right => ?_
    have one : p.phase = earlier := by simpa using (List.mem_filter.mp left).2
    have two : q.phase = later := by simpa using (List.mem_filter.mp right).2
    rw [Slot.before_iff, slot, slot, one, two]
    exact .inl less
  · have part : ∀ phase, ((inPhase plugins phase).filter fun p => slot p = place) =
        if phase = place.phase then plugins.filter fun p => slot p = place else [] := by
      intro phase
      rw [inPhase, List.filter_filter]
      split
      · rename_i here
        refine List.filter_congr fun p _ => ?_
        by_cases at_ : slot p = place
        · simp [here, ← at_, slot]
        · simp [at_]
      · rename_i apart
        refine List.filter_eq_nil_iff.mpr fun p _ both => apart ?_
        simp only [Bool.and_eq_true, decide_eq_true_eq, beq_iff_eq] at both
        rw [← both.2, ← both.1, slot]
    rw [List.filter_flatMap]
    simp only [part, Phase.all, List.flatMap_cons, List.flatMap_nil]
    cases place.phase <;> simp

inductive Origin (κ σ : Type) where
  | given (p : Plugin κ σ)
  | added (p : Plugin κ σ)

namespace Origin

def declared : Origin κ σ → Plugin κ σ
  | .given p => p
  | .added p => p

def work (replacements : Table (Plugin κ σ)) : Origin κ σ → Work κ σ
  | .given p => ((Table.get? replacements p.name).getD p).work
  | .added p => p.work

def resolved (c : PluginConfig κ σ) : Origin κ σ → Plugin κ σ
  | .given p => standIn c p
  | .added p => p

end Origin

def declared (given : List (Plugin κ σ)) (c : PluginConfig κ σ) : List (Origin κ σ) :=
  (given.filter (isKept c)).map .given ++ c.extra.map .added

def skeleton (p : Plugin κ σ) : String × Phase × Int := (p.name, p.phase, p.order)

theorem skeleton_resolved (c : PluginConfig κ σ) (o : Origin κ σ) :
    skeleton (o.resolved c) = skeleton o.declared := by
  cases o with
  | given p =>
    show skeleton (standIn c p) = skeleton p
    unfold standIn
    split <;> rfl
  | added p => rfl

theorem slot_resolved (c : PluginConfig κ σ) (o : Origin κ σ) :
    slot (o.resolved c) = slot o.declared := by
  have same := congrArg Prod.snd (skeleton_resolved c o)
  exact congrArg (fun place : Phase × Int => (⟨place.1, place.2⟩ : Slot)) same

theorem work_resolved (c : PluginConfig κ σ) (o : Origin κ σ) :
    (o.resolved c).work = o.work c.replacements := by
  cases o with
  | given p =>
    show (standIn c p).work = ((Table.get? c.replacements p.name).getD p).work
    unfold standIn
    cases Table.get? c.replacements p.name <;> rfl
  | added p => rfl

theorem plugins_eq (given : List (Plugin κ σ)) (c : PluginConfig κ σ) :
    plugins given c =
      (sorted (fun o => slot o.declared) (declared given c)).map (Origin.resolved c) := by
  have inserted : (given.filter (isKept c)).map (standIn c) ++ c.extra =
      (declared given c).map (Origin.resolved c) := by
    have extra : c.extra = (c.extra.map .added).map (Origin.resolved c) := by
      rw [List.map_map]
      exact (List.map_id c.extra).symm
    rw [declared, List.map_append, List.map_map, ← extra]
    rfl
  rw [plugins, inserted, sorted]
  refine (List.map_mergeSort fun a _ b _ => ?_).symm
  rw [← slot_resolved c a, ← slot_resolved c b]
  rfl

end Resolve

-- A plugin as it counts for a run: it shares walks in the capability phase only.
def Plugin.engaged {κ σ : Type} (p : Plugin κ σ) : Plugin κ σ :=
  if p.phase = .capability then p else p.unbatched

namespace Transformer
variable {ε σ : Type} {t : Transformer ε σ} {first second plugins : List (Plugin (HandlerName ε) σ)}
  {perform : HandlerName ε → Handler (HandlerName ε) σ} {r : Registry (HandlerName ε)}

theorem runEach_unbatched (plugins : List (Plugin (HandlerName ε) σ)) :
    runEach (plugins.map Plugin.unbatched) = runEach plugins := by
  induction plugins with
  | nil => rfl
  | cons p rest ih =>
    rw [List.map_cons, runEach, runEach, ih]
    rfl

theorem collect_registrant {p : Plugin (HandlerName ε) σ} (idle : r.registrant = none)
    (ctx : Context (HandlerName ε) σ) : (collect p r ctx).2.1.registrant = none := by
  unfold collect
  split
  · exact idle
  · rfl

theorem clear_eq (idle : r.registrant = none) : r.clear = .empty := by
  rw [Registry.clear, idle]
  rfl

theorem phase_alone (alone : ∀ p ∈ plugins, p.isBatched = false) (idle : r.registrant = none) :
    phase perform plugins r = (do flush perform r; runEach plugins) := by
  induction plugins generalizing r with
  | nil =>
    rw [phase, runEach]
    exact (bind_pure (flush perform r)).symm
  | cons p rest ih =>
    have fresh : (.empty : Registry (HandlerName ε)).registrant = Option.none := rfl
    have others := ih (fun q member => alone q (List.mem_cons_of_mem _ member)) fresh
    have none : flush perform (.empty : Registry (HandlerName ε)) = pure () := rfl
    rw [phase, if_neg (by simp [alone p List.mem_cons_self]), clear_eq idle, others, none, pure_bind,
      runEach]

theorem phase_before (alone : ∀ p ∈ first, p.isBatched = false) :
    phase perform (first ++ second) .empty = (do runEach first; phase perform second .empty) := by
  induction first with
  | nil => exact (pure_bind _ _).symm
  | cons p rest ih =>
    have none : flush perform (.empty : Registry (HandlerName ε)) = pure () := rfl
    rw [List.cons_append, phase, if_neg (by simp [alone p List.mem_cons_self]), none, pure_bind,
      clear_eq rfl, ih fun q member => alone q (List.mem_cons_of_mem _ member), runEach, bind_assoc]

theorem phase_after (alone : ∀ p ∈ second, p.isBatched = false) (idle : r.registrant = none) :
    phase perform (first ++ second) r = (do phase perform first r; runEach second) := by
  induction first generalizing r with
  | nil =>
    rw [List.nil_append, phase_alone alone idle, phase]
  | cons p rest ih =>
    rw [List.cons_append, phase, phase]
    split
    · rw [bind_assoc]
      refine bind_congr fun ctx => ?_
      have still := collect_registrant (p := p) idle ctx
      match collected : collect p r ctx with
      | (.ok (), filled, after) =>
        rw [collected] at still
        dsimp only
        rw [bind_assoc]
        exact bind_congr fun _ => ih still
      | (.error f, filled, after) => rfl
    · rw [clear_eq idle, ih rfl, bind_assoc]
      exact bind_congr fun _ => by rw [bind_assoc]

theorem engaged_inPhase {phase : Phase} (other : phase ≠ .capability) :
    (Resolve.inPhase plugins phase).map Plugin.engaged =
      (Resolve.inPhase plugins phase).map Plugin.unbatched := by
  refine List.map_congr_left fun p member => ?_
  have here : p.phase = phase := by simpa using (List.mem_filter.mp member).2
  rw [Plugin.engaged, if_neg (by rwa [here])]

theorem engaged_capability :
    (Resolve.inPhase plugins .capability).map Plugin.engaged = Resolve.inPhase plugins .capability := by
  refine (List.map_congr_left fun p member => ?_).trans (List.map_id _)
  have here : p.phase = .capability := by simpa using (List.mem_filter.mp member).2
  rw [Plugin.engaged, if_pos here]
  rfl

theorem alone_unbatched : ∀ p ∈ plugins.map Plugin.unbatched, p.isBatched = false := by
  intro p member
  obtain ⟨q, _, rfl⟩ := List.mem_map.mp member
  rfl

theorem run_eq (sorted : Phase.all.flatMap (Resolve.inPhase t.plugins) = t.plugins) :
    t.run = phase t.perform (t.plugins.map Plugin.engaged) .empty := by
  have parts : t.plugins.map Plugin.engaged =
      (Resolve.inPhase t.plugins .normalize).map Plugin.unbatched ++
        ((Resolve.inPhase t.plugins .structuring).map Plugin.unbatched ++
          (Resolve.inPhase t.plugins .capability ++
            (Resolve.inPhase t.plugins .finalize).map Plugin.unbatched)) := by
    rw [← engaged_inPhase (by decide), ← engaged_inPhase (by decide), ← engaged_inPhase (by decide),
      ← engaged_capability]
    conv_lhs => rw [← sorted]
    simp only [Phase.all, List.flatMap_cons, List.flatMap_nil, List.map_append, List.append_nil]
  rw [parts, phase_before alone_unbatched, phase_before alone_unbatched,
    phase_after alone_unbatched rfl]
  simp only [runEach_unbatched]
  unfold Transformer.run Phase.all runPhases runPhases runPhases runPhases runPhases runPhase
  dsimp only
  simp only [bind_pure_unit]

-- The resolved plugins are the stable ordering of those that are left and those that are added,
-- by phase and order, and nothing else is. Names, phases and orders do not depend on replacements;
-- the work does only where a given plugin is replaced by name. The phases make up the whole list,
-- and a run goes through it once, from the first plugin to the last.
theorem plugins_resolved (t : Transformer ε σ) (given : List (Plugin (HandlerName ε) σ))
    (c : PluginConfig (HandlerName ε) σ) :
    (∀ ordered, Resolve.StableOrdering Resolve.slot
        ((given.filter (Resolve.isKept c)).map (Resolve.standIn c) ++ c.extra) ordered ↔
          ordered = Resolve.plugins given c) ∧
      (∃ origins, (∀ ordered, Resolve.StableOrdering (fun o => Resolve.slot o.declared)
          (Resolve.declared given c) ordered ↔ ordered = origins) ∧
        ∀ replacements,
          (Resolve.plugins given { c with replacements := replacements }).map Resolve.skeleton =
              origins.map (fun o => Resolve.skeleton o.declared) ∧
            (Resolve.plugins given { c with replacements := replacements }).map Plugin.work =
              origins.map (Resolve.Origin.work replacements)) ∧
      Phase.all.flatMap (Resolve.inPhase (Resolve.plugins given c)) = Resolve.plugins given c ∧
      ({ t with plugins := Resolve.plugins given c } : Transformer ε σ).run =
        phase t.perform ((Resolve.plugins given c).map Plugin.engaged) .empty := by
  have whole := Resolve.flatMap_inPhase
    (Resolve.stable_sorted Resolve.slot
      ((given.filter (Resolve.isKept c)).map (Resolve.standIn c) ++ c.extra)).sorted
  refine ⟨fun ordered => Resolve.stable_iff, ⟨_, fun ordered => Resolve.stable_iff, ?_⟩, whole, run_eq whole⟩
  intro replacements
  rw [Resolve.plugins_eq, List.map_map, List.map_map]
  refine ⟨List.map_congr_left fun o _ => ?_, List.map_congr_left fun o _ => ?_⟩
  · exact Resolve.skeleton_resolved _ o
  · exact Resolve.work_resolved _ o

end Transformer
end SemanticMarkup
