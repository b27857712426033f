import SemanticMarkup.Proofs.Attribution.Events

namespace SemanticMarkup
open Dispatch
variable {ε σ : Type} {plugins : List (Plugin (HandlerName ε) σ)} {p : Plugin (HandlerName ε) σ}

namespace Dispatch

theorem unsigned_signEntries (p : Plugin (HandlerName ε) σ) (older : List (Entry (SignedName ε σ)))
    (entries : List (Entry (HandlerName ε))) :
    (signEntries p older entries).map (Entry.map HandlerName.unsigned) = entries := by
  induction entries generalizing older with
  | nil => cases older <;> rfl
  | cons e rest ih => cases older <;> exact congrArg (e :: ·) (ih _)

-- The entry carries the signature of a plugin of the capability phase, and the name of that plugin.
def Entry.Owned (plugins : List (Plugin (HandlerName ε) σ)) (e : Entry (SignedName ε σ)) : Prop :=
  ∃ p ∈ plugins, p.phase = .capability ∧ e.owner = p.name ∧ ∃ name, e.handler = .sign p name

theorem owned_signEntries (member : p ∈ plugins) (placed : p.phase = .capability)
    {old : List (Entry (SignedName ε σ))} {new : List (Entry (HandlerName ε))}
    (owned : ∀ e ∈ old, e.Owned plugins) (named : ∀ e ∈ new, e.owner = p.name) :
    ∀ e ∈ signEntries p old (old.map (Entry.map HandlerName.unsigned) ++ new), e.Owned plugins := by
  induction old with
  | nil =>
    rw [List.map_nil, List.nil_append]
    induction new with
    | nil => exact fun e none => absurd none List.not_mem_nil
    | cons first rest ih =>
      intro e found
      rcases List.mem_cons.mp found with rfl | later
      · exact ⟨p, member, placed, named first List.mem_cons_self, first.handler, rfl⟩
      · exact ih (fun e among => named e (List.mem_cons_of_mem _ among)) e later
  | cons first rest ih =>
    intro e found
    rcases List.mem_cons.mp found with rfl | later
    · obtain ⟨q, among, phase, owner, name, signature⟩ := owned first List.mem_cons_self
      refine ⟨q, among, phase, owner, name, ?_⟩
      show HandlerName.sign (first.handler.signer p) first.handler.unsigned = _
      rw [signature]
      rfl
    · exact ih (fun e among => owned e (List.mem_cons_of_mem _ among)) e later

namespace Registry

theorem map_signed (p : Plugin (HandlerName ε) σ) (before : Registry (SignedName ε σ))
    (r : Registry (HandlerName ε)) : (signed p before r).map HandlerName.unsigned = r := by
  unfold signed map
  dsimp only
  rw [List.map_map]
  refine congrArg (fun byKey => (⟨byKey, r.count, r.registrant⟩ : Registry (HandlerName ε))) ?_
  refine (List.map_congr_left fun entry _ => ?_).trans (List.map_id _)
  exact congrArg (Prod.mk entry.1) (unsigned_signEntries p _ _)

theorem insertAll_registrant {κ : Type} (r : Registry κ) (handlers : List (String × κ)) :
    (r.insertAll handlers).registrant = r.registrant := by
  induction handlers generalizing r with
  | nil => rfl
  | cons pair rest ih => exact ih (r.insert pair.1 pair.2)

theorem entries_insertAll {κ : Type} (r : Registry κ) (handlers : List (String × κ)) (key : String) :
    ∃ new, (r.insertAll handlers).entries key = r.entries key ++ new ∧ ∀ e ∈ new, e.owner = r.owner := by
  induction handlers generalizing r with
  | nil => exact ⟨[], (List.append_nil _).symm, fun e none => absurd none List.not_mem_nil⟩
  | cons pair rest ih =>
    obtain ⟨new, behind, owners⟩ := ih (r.insert pair.1 pair.2)
    have grown : (r.insertAll (pair :: rest)).entries key =
        (r.insert pair.1 pair.2).entries key ++ new := behind
    rw [grown, entries_insert]
    by_cases here : key = pair.1
    · subst here
      refine ⟨⟨r.count, r.owner, pair.2⟩ :: new, by simp, fun e among => ?_⟩
      rcases List.mem_cons.mp among with rfl | later
      · rfl
      · exact owners e later
    · exact ⟨new, by rw [if_neg here], owners⟩

def Owned (plugins : List (Plugin (HandlerName ε) σ)) (r : Registry (SignedName ε σ)) : Prop :=
  ∀ key, ∀ e ∈ r.entries key, e.Owned plugins

variable {r : Registry (SignedName ε σ)}

theorem owned_empty : (empty : Registry (SignedName ε σ)).Owned plugins :=
  fun _ _ none => absurd none List.not_mem_nil

theorem Owned.forNode (owned : r.Owned plugins) (n : Node) : ∀ e ∈ r.forNode n, e.Owned plugins := by
  have found : ∀ key every, ∀ e ∈ r.lookup key every, e.Owned plugins := by
    intro key every e member
    unfold lookup at member
    split at member
    · rw [List.mem_mergeSort, List.mem_append] at member
      rcases member with own | all
      · exact owned _ e own
      · exact owned _ e all
    · exact owned _ e member
  unfold Registry.forNode
  split
  · split
    · exact found _ _
    · exact owned _
  · exact found _ _

theorem Owned.insert (owned : r.Owned plugins) (member : p ∈ plugins) (placed : p.phase = .capability)
    (named : r.owner = p.name) (key : String) (name : HandlerName ε) :
    (r.insert key (.sign p name)).Owned plugins := by
  intro other e among
  rw [entries_insert] at among
  split at among
  · rcases List.mem_append.mp among with old | new
    · exact owned _ e old
    · rw [List.mem_singleton] at new
      subst new
      exact ⟨p, member, placed, named, name, rfl⟩
  · exact owned _ e among

theorem Owned.registerAll (owned : r.Owned plugins) (member : p ∈ plugins)
    (placed : p.phase = .capability) (named : r.owner = p.name)
    (pairs : List (Value × Option (HandlerName ε))) :
    (r.registerAll (p.signPairs pairs)).2.Owned plugins := by
  induction pairs generalizing r with
  | nil => exact owned
  | cons pair rest ih =>
    unfold Plugin.signPairs
    rw [List.map_cons, Registry.registerAll]
    cases registered : r.register pair.1 (pair.2.map (.sign p)) with
    | error f => exact owned
    | ok filled =>
      obtain ⟨key, signed, _, given, rfl⟩ := insert_of_register registered
      obtain ⟨handler, _, rfl⟩ := Option.map_eq_some_iff.mp given
      exact ih (owned.insert member placed named key handler) named

theorem entries_signed (p : Plugin (HandlerName ε) σ) (before : Registry (SignedName ε σ))
    (r : Registry (HandlerName ε)) (key : String) :
    (Registry.signed p before r).entries key = signEntries p (before.entries key) (r.entries key) := by
  have found := Table.get?_mapKeyed (fun key => signEntries p (before.entries key)) r.byKey key
  rw [entries, Registry.signed, found, entries.eq_1 r]
  cases Table.get? r.byKey key with
  | none => cases before.entries key <;> rfl
  | some entries => rfl

theorem Owned.signed (owned : r.Owned plugins) (member : p ∈ plugins) (placed : p.phase = .capability)
    (named : r.owner = p.name) (handlers : List (String × HandlerName ε)) :
    (Registry.signed p r ((r.map HandlerName.unsigned).insertAll handlers)).Owned plugins := by
  intro key
  obtain ⟨new, behind, owners⟩ := entries_insertAll (r.map HandlerName.unsigned) handlers key
  rw [entries_signed, behind, entries_map]
  exact owned_signEntries member placed (owned key) fun e among => (owners e among).trans named

end Registry
end Dispatch

end SemanticMarkup
