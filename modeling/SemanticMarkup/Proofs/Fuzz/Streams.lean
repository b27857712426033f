import SemanticMarkup.Fuzz.Document

namespace SemanticMarkup.Fuzz
open RandomSource

-- Two states of a source from which the same numbers are drawn, however one goes on drawing.
def Alike {S : Type} [RandomSource S] (s t : S) : Prop :=
  ∃ same : S → S → Prop, same s t ∧ ∀ a b, same a b → ∀ n pos,
    (draw n pos a).1 = (draw n pos b).1 ∧ same (draw n pos a).2 (draw n pos b).2

theorem Alike.refl {S : Type} [RandomSource S] (s : S) : Alike s s := by
  refine ⟨Eq, rfl, ?_⟩
  rintro a _ rfl n pos
  exact ⟨rfl, rfl⟩

-- A source whose seeds, when they are whole numbers, settle all that is drawn later.
def SeedSettles (S : Type) [RandomSource S] : Prop :=
  ∀ (n : Int) (short : Text.Short n) (s t : S), Alike (seed (.whole n short) s) (seed (.whole n short) t)

namespace Gen
variable {S α β : Type}

theorem length_times (n : Nat) (make : Gen S α) (s : S) : (times n make s).1.length = n := by
  induction n generalizing s with
  | zero => rfl
  | succ n ih => exact congrArg Nat.succ (ih (make s).2)

theorem take_times {m n : Nat} (le : n ≤ m) (make : Gen S α) (s : S) :
    (times m make s).1.take n = (times n make s).1 := by
  induction n generalizing m s with
  | zero => rfl
  | succ n ih =>
    cases m with
    | zero => exact absurd le (Nat.not_succ_le_zero n)
    | succ m => exact congrArg ((make s).1 :: ·) (ih (Nat.le_of_succ_le_succ le) (make s).2)

variable [RandomSource S]

def Steady (make : Gen S α) : Prop :=
  ∀ s t, Alike s t → (make s).1 = (make t).1 ∧ Alike (make s).2 (make t).2

theorem steady_pure (a : α) : Steady (pure a : Gen S α) := fun _ _ alike => ⟨rfl, alike⟩

theorem Steady.bind {make : Gen S α} {next : α → Gen S β} (first : Steady make)
    (rest : ∀ a, Steady (next a)) : Steady (make >>= next) := by
  intro s t alike
  obtain ⟨same, onward⟩ := first s t alike
  change (next (make s).1 (make s).2).1 = (next (make t).1 (make t).2).1 ∧
    Alike (next (make s).1 (make s).2).2 (next (make t).1 (make t).2).2
  rw [same]
  exact rest _ _ _ onward

theorem Steady.ite {c : Prop} [Decidable c] {one other : Gen S α} (yes : Steady one)
    (no : Steady other) : Steady (if c then one else other) := by
  split
  · exact yes
  · exact no

theorem steady_below (n : Nat) (pos : 0 < n) : Steady (below n pos : Gen S (Fin n)) := by
  rintro s t ⟨same, here, onward⟩
  obtain ⟨equal, later⟩ := onward s t here n pos
  exact ⟨equal, same, later, onward⟩

theorem steady_between (low high : Int) : Steady (between low high : Gen S Int) := by
  unfold between
  split
  · exact (steady_below _ _).bind fun _ => steady_pure _
  · exact (steady_below _ _).bind fun _ => steady_pure _

theorem steady_chance (often : Nat) : Steady (chance often : Gen S Bool) :=
  (steady_below _ _).bind fun _ => steady_pure _

theorem steady_choose (options : List α) (filled : options ≠ []) :
    Steady (choose options filled : Gen S α) :=
  (steady_below _ _).bind fun _ => steady_pure _

theorem steady_oneOf {options : List (Gen S α)} (filled : options ≠ [])
    (each : ∀ make ∈ options, Steady make) : Steady (oneOf options filled) := by
  refine (steady_below _ _).bind fun place => ?_
  exact each _ (List.getElem_mem place.isLt)

theorem steady_times (n : Nat) {make : Gen S α} (each : Steady make) : Steady (times n make) := by
  induction n with
  | zero => exact steady_pure []
  | succ n ih => exact each.bind fun _ => ih.bind fun _ => steady_pure _

theorem steady_several (low high : Int) {make : Gen S α} (each : Steady make) :
    Steady (several low high make) :=
  (steady_between low high).bind fun _ => steady_times _ each

theorem steady_sample (n : Nat) (xs : List α) : Steady (sample n xs : Gen S (List α)) := by
  induction n generalizing xs with
  | zero => exact steady_pure []
  | succ n ih =>
    cases xs with
    | nil => exact steady_pure []
    | cons x xs => exact (steady_below _ _).bind fun _ => (ih _).bind fun _ => steady_pure _

theorem steady_shuffled (xs : List α) : Steady (shuffled xs : Gen S (List α)) := by
  induction xs using shuffled.induct with
  | case1 =>
    rw [shuffled]
    exact steady_pure []
  | case2 x =>
    rw [shuffled]
    exact steady_pure [x]
  | case3 x y xs ih =>
    rw [shuffled]
    exact (steady_below _ _).bind fun place => (ih place).bind fun _ => steady_pure _

theorem steady_mapM {make : α → Gen S β} (each : ∀ a, Steady (make a)) (xs : List α) :
    Steady (xs.mapM make) := by
  induction xs with
  | nil =>
    rw [List.mapM_nil]
    exact steady_pure []
  | cons x xs ih =>
    rw [List.mapM_cons]
    exact (each x).bind fun _ => ih.bind fun _ => steady_pure _

end Gen
end SemanticMarkup.Fuzz
