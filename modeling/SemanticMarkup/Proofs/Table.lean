import Mathlib.Data.List.Induction
import Mathlib.Data.List.Nodup
import Mathlib.Data.List.Perm.Subperm
import SemanticMarkup.Table

namespace SemanticMarkup.Table
variable {α : Type}

theorem get?_isSome_iff (t : Table α) (key : String) : (get? t key).isSome ↔ key ∈ keys t := by
  induction t with
  | nil => simp [keys]
  | cons entry rest ih =>
    obtain ⟨k, v⟩ := entry
    rw [get?_cons]
    by_cases same : key = k
    · simp [same, keys]
    · rw [if_neg same, ih]
      simp [keys, same]

theorem mem_of_get? {t : Table α} {key : String} {value : α} (found : get? t key = some value) :
    (key, value) ∈ t := by
  induction t with
  | nil => cases found
  | cons entry rest ih =>
    obtain ⟨k, v⟩ := entry
    rw [get?_cons] at found
    split at found
    · rename_i same
      cases found
      simp [same]
    · exact List.mem_cons_of_mem _ (ih found)

theorem get?_of_mem {t : Table α} (once : (keys t).Nodup) {entry : String × α} (member : entry ∈ t) :
    get? t entry.1 = some entry.2 := by
  induction t with
  | nil => cases member
  | cons first rest ih =>
    obtain ⟨k, v⟩ := first
    obtain ⟨fresh, others⟩ := List.nodup_cons.mp once
    rw [get?_cons]
    rcases List.mem_cons.mp member with rfl | later
    · rw [if_pos rfl]
    · have differ : entry.1 ≠ k := by
        rintro rfl
        exact fresh (List.mem_map.mpr ⟨entry, later, rfl⟩)
      rw [if_neg differ]
      exact ih others later

theorem get?_eq_some_iff {t : Table α} (once : (keys t).Nodup) {key : String} {value : α} :
    get? t key = some value ↔ (key, value) ∈ t := ⟨mem_of_get?, get?_of_mem once⟩

theorem perm_iff_get? {t u : Table α} (once : (keys t).Nodup) (onceToo : (keys u).Nodup) :
    t.Perm u ↔ ∀ key, get? t key = get? u key := by
  constructor
  · intro perm key
    ext value
    rw [get?_eq_some_iff once, get?_eq_some_iff onceToo, perm.mem_iff]
  · intro same
    refine (List.perm_ext_iff_of_nodup once.of_map onceToo.of_map).mpr fun entry => ?_
    rw [← get?_eq_some_iff once, same, get?_eq_some_iff onceToo]

theorem nodup_of_perm {t u : Table α} (once : (keys t).Nodup) (perm : t.Perm u) : (keys u).Nodup :=
  (perm.map Prod.fst).nodup_iff.mp once

theorem keys_set_nodup {t : Table α} (once : (keys t).Nodup) (key : String) (value : α) :
    (keys (set t key value)).Nodup := by
  by_cases present : key ∈ keys t
  · rwa [keys_set_of_mem present]
  · rw [keys_set_of_not_mem present]
    refine List.nodup_append.mpr ⟨once, by simp, ?_⟩
    intro old inside new last same
    rw [← List.mem_singleton.mp last, ← same] at present
    exact present inside

theorem forall_set {t : Table α} {P : String × α → Prop} (all : ∀ entry ∈ t, P entry) {key : String}
    {value : α} (new : P (key, value)) : ∀ entry ∈ set t key value, P entry := by
  induction t with
  | nil => simpa [set] using new
  | cons entry rest ih =>
    obtain ⟨k, v⟩ := entry
    have others := ih fun e member => all e (by simp [member])
    unfold set
    split
    · rename_i same
      intro e member
      rcases List.mem_cons.mp member with rfl | later
      · rwa [same]
      · exact all e (by simp [later])
    · intro e member
      rcases List.mem_cons.mp member with rfl | later
      · exact all _ (by simp)
      · exact others e later

theorem set_same {t : Table α} {key : String} {value : α} (there : get? t key = some value) :
    set t key value = t := by
  induction t with
  | nil => cases there
  | cons entry rest ih =>
    obtain ⟨k, v⟩ := entry
    rw [get?_cons] at there
    rw [set]
    by_cases here : key = k
    · rw [if_pos here] at there
      cases there
      rw [if_pos here.symm]
    · rw [if_neg here] at there
      rw [if_neg (Ne.symm here), ih there]

theorem set_of_not_mem {t : Table α} {key : String} (absent : key ∉ keys t) (value : α) :
    set t key value = t ++ [(key, value)] := by
  induction t with
  | nil => rfl
  | cons entry rest ih =>
    obtain ⟨k, v⟩ := entry
    simp only [keys, List.map_cons, List.mem_cons, not_or] at absent
    rw [set, if_neg (Ne.symm absent.1), ih absent.2, List.cons_append]

theorem keys_update_nodup {t : Table α} (once : (keys t).Nodup) (changes : Table α) :
    (keys (update t changes)).Nodup := by
  induction changes generalizing t with
  | nil => exact once
  | cons entry rest ih => exact ih (keys_set_nodup once entry.1 entry.2)

theorem ofPairs_once (pairs : List (String × α)) : (keys (ofPairs pairs)).Nodup :=
  keys_update_nodup (show (keys ([] : Table α)).Nodup from List.nodup_nil) pairs

theorem update_fresh {t changes : Table α} (once : (keys (t ++ changes)).Nodup) :
    update t changes = t ++ changes := by
  induction changes generalizing t with
  | nil => simp
  | cons entry rest ih =>
    obtain ⟨k, v⟩ := entry
    have whole : t ++ [(k, v)] ++ rest = t ++ (k, v) :: rest := by simp
    have absent : k ∉ keys t := by
      intro old
      rw [keys, List.map_append, List.nodup_append] at once
      exact once.2.2 k old k (by simp) rfl
    rw [update_cons, set_of_not_mem absent, ih (by rwa [whole]), whole]

theorem update_empty {t : Table α} (once : (keys t).Nodup) : update [] t = t := update_fresh once

theorem forall_ofPairs {P : String × α → Prop} {pairs : List (String × α)}
    (all : ∀ entry ∈ pairs, P entry) : ∀ entry ∈ ofPairs pairs, P entry := by
  have added : ∀ t : Table α, (∀ entry ∈ t, P entry) → ∀ entry ∈ update t pairs, P entry := by
    induction pairs with
    | nil => exact fun t old => old
    | cons pair rest ih =>
      exact fun t old => ih (fun entry member => all entry (List.mem_cons_of_mem _ member)) _
        (forall_set old (all pair List.mem_cons_self))
  exact added [] (by simp)

theorem get?_update (t changes : Table α) (once : (keys changes).Nodup) (key : String) :
    get? (update t changes) key = (get? changes key).or (get? t key) := by
  induction changes generalizing t with
  | nil => simp
  | cons entry rest ih =>
    obtain ⟨k, v⟩ := entry
    obtain ⟨fresh, others⟩ := List.nodup_cons.mp once
    rw [update_cons, ih _ others, get?_set, get?_cons]
    by_cases here : key = k
    · have absent : get? rest key = none := by
        rw [← Option.not_isSome_iff_eq_none, get?_isSome_iff, here]
        exact fresh
      subst here
      simp [absent]
    · simp [here]

theorem mem_keys_set {t : Table α} {key : String} {value : α} {other : String} :
    other ∈ keys (set t key value) ↔ other ∈ keys t ∨ other = key := by
  by_cases present : key ∈ keys t
  · rw [keys_set_of_mem present]
    exact ⟨.inl, fun either => either.elim id fun same => same ▸ present⟩
  · rw [keys_set_of_not_mem present, List.mem_append, List.mem_singleton]

theorem mem_keys_update {t changes : Table α} {key : String} :
    key ∈ keys (update t changes) ↔ key ∈ keys t ∨ key ∈ keys changes := by
  induction changes generalizing t with
  | nil => simp [keys]
  | cons entry rest ih =>
    rw [update_cons, ih, mem_keys_set, or_assoc]
    exact or_congr_right List.mem_cons.symm

theorem set_set (t : Table α) (key : String) (old value : α) :
    set (set t key old) key value = set t key value := by
  induction t with
  | nil => simp [set]
  | cons entry rest ih =>
    obtain ⟨k, v⟩ := entry
    by_cases here : k = key
    · simp [set, here]
    · simp [set, here, ih]

-- An entry that is there may be set before or after another one. A new one may not: the order would
-- tell.
theorem set_comm {t : Table α} {key other : String} (present : key ∈ keys t) (differ : other ≠ key)
    (value second : α) : set (set t other second) key value = set (set t key value) other second := by
  induction t with
  | nil => cases present
  | cons entry rest ih =>
    obtain ⟨k, v⟩ := entry
    by_cases here : k = key
    · subst here
      simp [set, Ne.symm differ]
    · have later : key ∈ keys rest := (List.mem_cons.mp present).resolve_left (Ne.symm here)
      by_cases there : k = other
      · simp [set, there, differ]
      · simp [set, here, there, ih later]

theorem set_update {t changes : Table α} {key : String} (present : key ∈ keys t)
    (absent : key ∉ keys changes) (value : α) :
    set (update t changes) key value = update (set t key value) changes := by
  induction changes generalizing t with
  | nil => rfl
  | cons entry rest ih =>
    obtain ⟨k, v⟩ := entry
    obtain ⟨other, later⟩ := not_or.mp fun either => absent (List.mem_cons.mpr either)
    rw [update_cons, update_cons, ih (mem_keys_set.mpr (.inl present)) later,
      set_comm present (Ne.symm other)]

theorem update_set (t : Table α) {changes : Table α} (once : (keys changes).Nodup) (key : String)
    (value : α) : update t (set changes key value) = set (update t changes) key value := by
  induction changes generalizing t with
  | nil => rfl
  | cons entry rest ih =>
    obtain ⟨k, v⟩ := entry
    obtain ⟨fresh, others⟩ := List.nodup_cons.mp once
    rw [set]
    split
    · rename_i here
      subst here
      rw [update_cons, update_cons, set_update (mem_keys_set.mpr (.inr rfl)) fresh, set_set]
    · rw [update_cons, update_cons, ih _ others]

theorem update_ofPairs (t : Table α) (pairs : List (String × α)) :
    update t (ofPairs pairs) = update t pairs := by
  induction pairs using List.reverseRecOn with
  | nil => rfl
  | append_singleton pairs pair ih =>
    rw [ofPairs, update_append, update_append, ← ih]
    exact update_set t (ofPairs_once pairs) pair.1 pair.2

theorem ofPairs_append (front back : List (String × α)) :
    ofPairs (front ++ back) = update (ofPairs front) (ofPairs back) := by
  rw [update_ofPairs, ofPairs, update_append]
  rfl

theorem keys_update (t : Table α) {changes : Table α} (once : (keys changes).Nodup) :
    keys (update t changes) = keys t ++ (keys changes).filter fun key => key ∉ keys t := by
  induction changes generalizing t with
  | nil => simp [keys]
  | cons entry rest ih =>
    obtain ⟨k, v⟩ := entry
    obtain ⟨fresh, others⟩ := List.nodup_cons.mp once
    rw [update_cons, ih _ others, show keys ((k, v) :: rest) = k :: keys rest from rfl]
    by_cases present : k ∈ keys t
    · rw [keys_set_of_mem present, List.filter_cons_of_neg (by simpa using present)]
    · rw [keys_set_of_not_mem present, List.filter_cons_of_pos (by simpa using present),
        List.append_assoc, List.singleton_append]
      congr 2
      refine List.filter_congr fun key member => ?_
      have differ : key ≠ k := fun same => fresh (same ▸ member)
      simp [differ]

end SemanticMarkup.Table
