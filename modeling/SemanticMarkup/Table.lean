namespace SemanticMarkup

-- A mapping that remembers in which order its keys came. Every table built by `set` holds a key
-- at most once.
abbrev Table (α : Type) := List (String × α)

namespace Table
variable {α β : Type}

def get? (t : Table α) (key : String) : Option α := t.lookup key

def keys (t : Table α) : List String := t.map Prod.fst

def hasKey (t : Table α) (key : String) : Bool := (get? t key).isSome

-- A key that is there keeps its place and takes the value; a new one goes to the end.
def set : Table α → String → α → Table α
  | [], key, value => [(key, value)]
  | (k, v) :: rest, key, value =>
    if k = key then (k, value) :: rest else (k, v) :: set rest key value

def update (t changes : Table α) : Table α :=
  changes.foldl (fun t entry => set t entry.1 entry.2) t

-- Pairs may repeat a key: the first place and the last value count.
def ofPairs (pairs : List (String × α)) : Table α := update [] pairs

def mapValues (f : α → β) (t : Table α) : Table β := t.map fun entry => (entry.1, f entry.2)

@[simp] theorem get?_nil (key : String) : get? ([] : Table α) key = none := rfl

theorem get?_cons (k : String) (v : α) (rest : Table α) (key : String) :
    get? ((k, v) :: rest) key = if key = k then some v else get? rest key := by
  by_cases h : key = k
  · simp [get?, h]
  · have : (key == k) = false := by simpa using h
    simp [get?, List.lookup_cons, h, this]

theorem get?_set (t : Table α) (key : String) (value : α) (other : String) :
    get? (set t key value) other = if other = key then some value else get? t other := by
  induction t with
  | nil => simp [set, get?_cons]
  | cons entry rest ih =>
    obtain ⟨k, v⟩ := entry
    by_cases h : k = key
    · subst h
      by_cases ho : other = k <;> simp [set, get?_cons, ho]
    · by_cases ho : other = k
      · subst ho
        simp [set, get?_cons, h]
      · simp [set, get?_cons, h, ho, ih]

theorem keys_set_of_mem {t : Table α} {key : String} (present : key ∈ keys t) (value : α) :
    keys (set t key value) = keys t := by
  induction t with
  | nil => simp [keys] at present
  | cons entry rest ih =>
    obtain ⟨k, v⟩ := entry
    by_cases h : k = key
    · simp [set, keys, h]
    · have : key ∈ keys rest := by
        rcases List.mem_cons.mp present with same | later
        · exact absurd same.symm h
        · exact later
      simpa [set, keys, h] using ih this

theorem keys_set_of_not_mem {t : Table α} {key : String} (absent : key ∉ keys t) (value : α) :
    keys (set t key value) = keys t ++ [key] := by
  induction t with
  | nil => rfl
  | cons entry rest ih =>
    obtain ⟨k, v⟩ := entry
    have hk : k ≠ key := fun same => absent (by simp [keys, same])
    have hr : key ∉ keys rest := fun later => absent (by simp [keys] at later ⊢; exact .inr later)
    have tail := ih hr
    simp only [keys] at tail
    simp [set, keys, hk, tail]

@[simp] theorem update_nil (t : Table α) : update t [] = t := rfl

theorem update_cons (t : Table α) (k : String) (v : α) (rest : Table α) :
    update t ((k, v) :: rest) = update (set t k v) rest := rfl

theorem update_append (t u w : Table α) : update t (u ++ w) = update (update t u) w := by
  simp [update, List.foldl_append]

end Table
end SemanticMarkup
