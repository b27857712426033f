import SemanticMarkup.Dispatch.Registry

namespace SemanticMarkup

theorem Table.get?_mapKeyed {α β : Type} (f : String → α → β) (t : Table α) (key : String) :
    get? (t.map fun entry => (entry.1, f entry.1 entry.2)) key = (get? t key).map (f key) := by
  induction t with
  | nil => rfl
  | cons entry rest ih =>
    obtain ⟨k, v⟩ := entry
    rw [List.map_cons, get?_cons, get?_cons, ih]
    by_cases here : key = k
    · simp [here]
    · simp [here]

namespace Dispatch
variable {κ ν : Type}

def Entry.map (f : κ → ν) (e : Entry κ) : Entry ν := ⟨e.turn, e.owner, f e.handler⟩

namespace Registry

def map (f : κ → ν) (r : Registry κ) : Registry ν :=
  ⟨r.byKey.map fun entry => (entry.1, entry.2.map (Entry.map f)), r.count, r.registrant⟩

variable (f : κ → ν) (r : Registry κ)

theorem entries_map (key : String) : (r.map f).entries key = (r.entries key).map (Entry.map f) := by
  have found := Table.get?_mapKeyed (fun _ => List.map (Entry.map f)) r.byKey key
  rw [entries, map, found, entries]
  cases Table.get? r.byKey key <;> rfl

theorem forNode_map (n : Node) : (r.map f).forNode n = (r.forNode n).map (Entry.map f) := by
  have found : ∀ key every, (r.map f).lookup key every = (r.lookup key every).map (Entry.map f) := by
    intro key every
    unfold lookup
    split
    · rw [entries_map, entries_map, ← List.map_append]
      exact (@List.map_mergeSort _ _ _ _ (Entry.map f) _ fun a _ b _ => rfl).symm
    · exact entries_map f r key
  unfold forNode
  split
  · split
    · exact found _ _
    · exact entries_map f r _
  · exact found _ _

theorem set_map (t : Table (List (Entry κ))) (key : String) (entries : List (Entry κ)) :
    (Table.set t key entries).map (fun entry => (entry.1, entry.2.map (Entry.map f))) =
      Table.set (t.map fun entry => (entry.1, entry.2.map (Entry.map f))) key
        (entries.map (Entry.map f)) := by
  induction t with
  | nil => rfl
  | cons entry rest ih =>
    obtain ⟨k, v⟩ := entry
    rw [Table.set, List.map_cons, Table.set]
    split
    · rfl
    · rw [List.map_cons, ih]

theorem insert_map (key : String) (handler : κ) :
    (r.map f).insert key (f handler) = (r.insert key handler).map f := by
  unfold insert
  rw [entries_map]
  unfold map
  dsimp only
  rw [set_map, List.map_append]
  rfl

theorem register_map (key : Value) (handler : Option κ) :
    (r.map f).register key (handler.map f) = (r.register key handler).map (map f) := by
  unfold register
  cases key with
  | text name =>
    by_cases empty : name = ""
    · subst empty
      rfl
    · cases handler with
      | none => simp [owner, map, Except.map]
      | some h => simp [insert_map, Except.map]
  | _ => rfl

theorem registerAll_map (pairs : List (Value × Option κ)) :
    (r.map f).registerAll (pairs.map fun pair => (pair.1, pair.2.map f)) =
      ((r.registerAll pairs).1, (r.registerAll pairs).2.map f) := by
  induction pairs generalizing r with
  | nil => rfl
  | cons pair rest ih =>
    obtain ⟨key, handler⟩ := pair
    rw [List.map_cons, registerAll, registerAll, register_map]
    cases r.register key handler with
    | error fault => rfl
    | ok filled => exact ih filled

theorem withPair_map (pairs : List (Value × Option κ)) (key : Value) (handler : Option κ) :
    withPair (pairs.map fun pair => (pair.1, pair.2.map f)) key (handler.map f) =
      (withPair pairs key handler).map fun pair => (pair.1, pair.2.map f) := by
  have known : (pairs.map fun pair => (pair.1, pair.2.map f)).any (fun pair => pair.1.same key) =
      pairs.any fun pair => pair.1.same key := by
    rw [List.any_map]
    rfl
  unfold withPair
  rw [known]
  split
  · rw [List.map_map, List.map_map]
    refine List.map_congr_left fun pair _ => ?_
    simp only [Function.comp]
    split <;> rfl
  · rw [List.map_append]
    rfl

theorem mapping_map (pairs : List (Value × Option κ)) :
    mapping (pairs.map fun pair => (pair.1, pair.2.map f)) =
      (mapping pairs).map fun pair => (pair.1, pair.2.map f) := by
  have folded : ∀ done : List (Value × Option κ),
      (pairs.map fun pair => (pair.1, pair.2.map f)).foldl (fun done p => withPair done p.1 p.2)
          (done.map fun pair => (pair.1, pair.2.map f)) =
        (pairs.foldl (fun done p => withPair done p.1 p.2) done).map
          fun pair => (pair.1, pair.2.map f) := by
    induction pairs with
    | nil => exact fun done => rfl
    | cons pair rest ih =>
      intro done
      rw [List.map_cons, List.foldl_cons, List.foldl_cons, withPair_map]
      exact ih _
  exact folded []

end Registry
end Dispatch
end SemanticMarkup
