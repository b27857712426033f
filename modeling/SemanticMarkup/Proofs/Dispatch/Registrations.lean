import Mathlib.Data.List.Nodup
import SemanticMarkup.Dispatch.Registry

namespace SemanticMarkup.Dispatch
variable {κ : Type}

-- A handler as a plugin brings it, before it has a place in a registry.
structure Registration (κ : Type) where
  key : String
  owner : String
  handler : κ

namespace Registration

-- A text is served under the key of texts, an element under its tag and under the key of all
-- elements.
def serves (g : Registration κ) (n : Node) : Bool :=
  if n.isElement then g.key == elementKey || n.tag.isText g.key else g.key == textKey

def entry (numbered : Registration κ × Nat) : Entry κ :=
  ⟨numbered.2, numbered.1.owner, numbered.1.handler⟩

def entries (picked : Registration κ → Bool) (done : List (Registration κ)) : List (Entry κ) :=
  (done.zipIdx.filter fun g => picked g.1).map entry

theorem entries_concat (picked : Registration κ → Bool) (done : List (Registration κ))
    (g : Registration κ) :
    entries picked (done ++ [g]) =
      entries picked done ++ if picked g then [entry (g, done.length)] else [] := by
  unfold entries
  rw [List.zipIdx_append, List.filter_append, List.map_append]
  cases new : picked g <;> simp [new]

theorem pairs_entries (picked : Registration κ → Bool) (done : List (Registration κ)) :
    (entries picked done).map (fun e => (e.owner, e.handler)) =
      (done.filter picked).map fun g => (g.owner, g.handler) := by
  rw [entries, List.map_map]
  have named : (fun e : Entry κ => (e.owner, e.handler)) ∘ entry =
      (fun g => (g.owner, g.handler)) ∘ Prod.fst := rfl
  have kept := List.filter_map (f := Prod.fst) (p := picked) (l := done.zipIdx)
  rw [List.zipIdx_map_fst] at kept
  rw [named, ← List.map_map, kept]
  rfl

theorem turns_entries (picked : Registration κ → Bool) (done : List (Registration κ)) :
    ((entries picked done).map Entry.turn).Pairwise (· < ·) := by
  have turns : (entries picked done).map Entry.turn =
      (done.zipIdx.filter fun g => picked g.1).map Prod.snd := by
    rw [entries, List.map_map]
    rfl
  have all : (done.zipIdx.map Prod.snd).Pairwise (· < ·) := by
    rw [List.zipIdx_map_snd]
    exact List.pairwise_lt_range'
  rw [turns]
  exact all.sublist (List.filter_sublist.map Prod.snd)

theorem entries_append_perm {first second : Registration κ → Bool}
    (apart : ∀ g, first g = true → second g = false) (done : List (Registration κ)) :
    (entries first done ++ entries second done).Perm (entries (fun g => first g || second g) done) := by
  have parts := List.filter_append_perm (fun g : Registration κ × Nat => first g.1)
    (done.zipIdx.filter fun g => first g.1 || second g.1)
  rw [List.filter_filter, List.filter_filter] at parts
  have early : (fun g : Registration κ × Nat => first g.1 && (first g.1 || second g.1)) =
      fun g => first g.1 := by
    funext g
    cases first g.1 <;> rfl
  have late : (fun g : Registration κ × Nat => !first g.1 && (first g.1 || second g.1)) =
      fun g => second g.1 := by
    funext g
    cases taken : first g.1 with
    | false => rfl
    | true => simp [apart g.1 taken]
  rw [early, late] at parts
  have mapped := parts.map entry
  rwa [List.map_append] at mapped

theorem mergeSort_entries {first second : Registration κ → Bool}
    (apart : ∀ g, first g = true → second g = false) (done : List (Registration κ)) :
    (entries first done ++ entries second done).mergeSort (fun a b => a.turn ≤ b.turn) =
      entries (fun g => first g || second g) done := by
  have perm := (List.mergeSort_perm (entries first done ++ entries second done)
    (fun a b => a.turn ≤ b.turn)).trans (entries_append_perm apart done)
  have turns := turns_entries (fun g => first g || second g) done
  have sorted : ((entries first done ++ entries second done).mergeSort
      fun a b => a.turn ≤ b.turn).Pairwise fun a b => decide (a.turn ≤ b.turn) = true :=
    List.pairwise_mergeSort (fun a b c => by simp only [decide_eq_true_eq]; omega)
      (fun a b => by simp only [Bool.or_eq_true, decide_eq_true_eq]; omega) _
  refine List.Perm.eq_of_pairwise ?_ sorted ?_ perm
  · intro a b left right before after
    simp only [decide_eq_true_eq] at before after
    have once : ((entries (fun g => first g || second g) done).map Entry.turn).Nodup :=
      turns.imp fun less => Nat.ne_of_lt less
    exact List.inj_on_of_nodup_map once (perm.mem_iff.mp left) right (by omega)
  · exact (List.pairwise_map.mp turns).imp fun less => by simpa using Nat.le_of_lt less

end Registration

namespace Registry
open Registration

-- What a registry holds was registered in this order since it was last empty.
structure Holds (r : Registry κ) (done : List (Registration κ)) : Prop where
  count : r.count = done.length
  entries : ∀ key, r.entries key = Registration.entries (fun g => g.key == key) done

theorem holds_empty : (empty : Registry κ).Holds [] := ⟨rfl, fun _ => rfl⟩

theorem holds_clear (r : Registry κ) : r.clear.Holds [] := ⟨rfl, fun _ => rfl⟩

theorem entries_insert (r : Registry κ) (key other : String) (handler : κ) :
    (r.insert key handler).entries other =
      if other = key then r.entries key ++ [⟨r.count, r.owner, handler⟩] else r.entries other := by
  rw [Registry.entries, insert, Table.get?_set]
  split
  · rfl
  · rfl

theorem insert_of_register {r filled : Registry κ} {key : Value} {handler : Option κ}
    (registered : r.register key handler = .ok filled) :
    ∃ name given, key = .text name ∧ handler = some given ∧ filled = r.insert name given := by
  unfold register at registered
  dsimp only at registered
  split at registered
  · cases registered
  · cases registered
  · rename_i name given _
    cases registered
    exact ⟨name, given, rfl, rfl, rfl⟩
  · cases registered

theorem holds_insert {r : Registry κ} {done : List (Registration κ)} (holds : r.Holds done)
    (key : String) (handler : κ) :
    (r.insert key handler).Holds (done ++ [⟨key, r.owner, handler⟩]) := by
  refine ⟨by simp [insert, holds.count], fun other => ?_⟩
  rw [entries_concat, ← holds.entries other, ← holds.count, entries_insert]
  by_cases same : other = key
  · subst same
    simp [entry]
  · have apart : (key == other) = false := by simpa using fun equal => same equal.symm
    simp [same, apart]

def insertFor (r : Registry κ) (plugin key : String) (handler : κ) : Registry κ :=
  { insert { r with registrant := some plugin } key handler with registrant := none }

theorem holds_insertFor {r : Registry κ} {done : List (Registration κ)} (holds : r.Holds done)
    (plugin key : String) (handler : κ) :
    (r.insertFor plugin key handler).Holds
      (done ++ [⟨key, ({ r with registrant := some plugin } : Registry κ).owner, handler⟩]) := by
  have filling : ({ r with registrant := some plugin } : Registry κ).Holds done :=
    ⟨holds.count, holds.entries⟩
  have filled := holds_insert filling key handler
  exact ⟨filled.count, filled.entries⟩

theorem holds_register {r filled : Registry κ} {done : List (Registration κ)} (holds : r.Holds done)
    {key : Value} {handler : Option κ} (registered : r.register key handler = .ok filled) :
    ∃ name given, key = .text name ∧ handler = some given ∧
      filled.Holds (done ++ [⟨name, r.owner, given⟩]) := by
  obtain ⟨name, given, named, callable, rfl⟩ := insert_of_register registered
  exact ⟨name, given, named, callable, holds_insert holds name given⟩

theorem holds_registerAll {r : Registry κ} {done : List (Registration κ)} (holds : r.Holds done)
    (pairs : List (Value × Option κ)) : ∃ more, (r.registerAll pairs).2.Holds (done ++ more) := by
  induction pairs generalizing r done with
  | nil => exact ⟨[], by simpa [registerAll] using holds⟩
  | cons pair rest ih =>
    unfold registerAll
    cases registered : r.register pair.1 pair.2 with
    | error f => exact ⟨[], by simpa using holds⟩
    | ok filled =>
      obtain ⟨name, given, _, _, held⟩ := holds_register holds registered
      obtain ⟨more, all⟩ := ih held
      exact ⟨_, by simpa using all⟩

theorem forNode_eq {r : Registry κ} {done : List (Registration κ)} (holds : r.Holds done) (n : Node) :
    r.forNode n = Registration.entries (fun g => g.serves n) done := by
  unfold forNode
  cases element : n.isElement with
  | false => simp [lookup, holds.entries, serves, element]
  | true =>
    have every : r.entries elementKey = Registration.entries (fun g => g.key == elementKey) done :=
      holds.entries elementKey
    cases tag : n.tag with
    | text name =>
      rw [if_pos rfl]
      dsimp only
      have own : (fun g : Registration κ => g.serves n) =
          fun g => (g.key == name) || (g.key == elementKey) := by
        funext g
        simp [serves, element, tag, Value.isText, Value.text?, Bool.or_comm, BEq.comm]
      rw [own, lookup, holds.entries name, every]
      by_cases all : name = elementKey
      · simp [all]
      · rw [if_pos (by simpa using all)]
        refine mergeSort_entries (fun g named => ?_) done
        simp only [beq_iff_eq] at named
        simpa [named] using all
    | _ =>
      have only : (fun g : Registration κ => g.serves n) = fun g => g.key == elementKey := by
        funext g
        simp [serves, element, tag, Value.isText, Value.text?]
      rw [only]
      exact every

end Registry

theorem owner_of_registrant {r : Registry κ} {name : String} (named : name ≠ "")
    (registrant : r.registrant = some name) : r.owner = name := by
  rw [Registry.owner, registrant]
  simp [Option.filter, named]

end SemanticMarkup.Dispatch
