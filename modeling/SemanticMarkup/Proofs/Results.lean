namespace SemanticMarkup
variable {ε α β γ : Type}

theorem ok_of_map {f : α → β} {result : Except ε α} {b : β} (fine : result.map f = .ok b) :
    ∃ a, result = .ok a ∧ f a = b := by
  cases result with
  | error _ => cases fine
  | ok a =>
    cases fine
    exact ⟨a, rfl, rfl⟩

theorem error_of_map {f : α → β} {result : Except ε α} {fault : ε}
    (failed : result.map f = .error fault) : result = .error fault := by
  cases result with
  | error _ =>
    cases failed
    rfl
  | ok _ => cases failed

theorem ok_of_mapError {f : ε → ε} {result : Except ε α} {a : α}
    (fine : result.mapError f = .ok a) : result = .ok a := by
  cases result with
  | error _ => cases fine
  | ok b =>
    cases fine
    rfl

theorem ok_of_bind {first : Except ε α} {next : α → Except ε β} {b : β}
    (fine : (first >>= next) = .ok b) : ∃ a, first = .ok a ∧ next a = .ok b := by
  cases first with
  | error _ => cases fine
  | ok a => exact ⟨a, rfl, fine⟩

theorem bind_of_map (result : Except ε α) (f : α → β) (next : β → Except ε γ) :
    (result.map f >>= next) = result >>= fun a => next (f a) := by
  cases result <;> rfl

theorem map_of_bind (first : Except ε α) (next : α → Except ε β) (f : β → γ) :
    (first >>= next).map f = first >>= fun a => (next a).map f := by
  cases first <;> rfl

theorem forM_ok {list : List α} {f : α → Except ε Unit} (each : ∀ a ∈ list, f a = .ok ()) :
    list.forM f = .ok () := by
  induction list with
  | nil => rfl
  | cons a rest ih =>
    have others := ih fun b member => each b (List.mem_cons_of_mem _ member)
    show (f a >>= fun _ => rest.forM f) = .ok ()
    rw [each a List.mem_cons_self]
    exact others

-- Two results that are both faults, or both fine and related.
inductive Paired (R : α → β → Prop) : Except ε α → Except ε β → Prop where
  | ok {a : α} {b : β} (related : R a b) : Paired R (.ok a) (.ok b)
  | error (f g : ε) : Paired R (.error f) (.error g)

namespace Paired
variable {δ : Type} {R : α → β → Prop} {first : Except ε α} {second : Except ε β}

theorem map {S : γ → δ → Prop} {f : α → γ} {g : β → δ} (paired : Paired R first second)
    (related : ∀ a b, R a b → S (f a) (g b)) : Paired S (first.map f) (second.map g) := by
  cases paired with
  | ok one => exact .ok (related _ _ one)
  | error => exact .error _ _

theorem bind {S : γ → δ → Prop} {f : α → Except ε γ} {g : β → Except ε δ}
    (paired : Paired R first second) (related : ∀ a b, R a b → Paired S (f a) (g b)) :
    Paired S (first >>= f) (second >>= g) := by
  cases paired with
  | ok one => exact related _ _ one
  | error => exact .error _ _

theorem mapError (paired : Paired R first second) (f g : ε → ε) :
    Paired R (first.mapError f) (second.mapError g) := by
  cases paired with
  | ok one => exact .ok one
  | error => exact .error _ _

end Paired

end SemanticMarkup
