import Mathlib.Data.List.Nodup
import Mathlib.Data.List.Perm.Subperm
import SemanticMarkup.Passes.Structure
import SemanticMarkup.Proofs.Table

namespace SemanticMarkup

namespace Marks
open Passes.Inherited

def held (marks : Value) (mark : String) : Option Value := Table.get? ((marks.record?).getD []) mark

-- A table of marks as formatting tags build it: no mark twice, and all of them set.
structure Sound (t : Table Value) : Prop where
  once : (Table.keys t).Nodup
  set : ∀ entry ∈ t, entry.2 = .flag true

theorem Sound.nothing : Sound [] := ⟨List.nodup_nil, by simp⟩

theorem Sound.mark {t : Table Value} (sound : Sound t) (mark : String) :
    Sound (Table.set t mark (.flag true)) :=
  ⟨Table.keys_set_nodup sound.once mark _, Table.forall_set sound.set rfl⟩

theorem held_unlessEmpty (t : Table Value) (mark : String) :
    held (unlessEmpty t) mark = Table.get? t mark := by
  cases t with
  | nil => rfl
  | cons => rfl

-- Marks as they are given to a text: none, or a table that says yes or no to each of its marks.
inductive Flags : Value → Prop where
  | nothing : Flags .null
  | table {t : Table Value} (once : (Table.keys t).Nodup)
      (flags : ∀ entry ∈ t, ∃ b, entry.2 = .flag b) : Flags (.record t)

theorem same_flags (a b : Bool) : (Value.flag a).same (.flag b) = true ↔ a = b := by
  cases a <;> cases b <;> decide

theorem sameFields_flags_iff {t u : Table Value} (left : ∀ entry ∈ t, ∃ b, entry.2 = .flag b)
    (right : ∀ entry ∈ u, ∃ b, entry.2 = .flag b) :
    Value.sameFields t u = true ↔ ∀ entry ∈ t, Table.get? u entry.1 = some entry.2 := by
  induction t with
  | nil => simp [Value.sameFields]
  | cons entry rest ih =>
    obtain ⟨mark, value⟩ := entry
    obtain ⟨b, rfl⟩ : ∃ b, value = .flag b := left _ List.mem_cons_self
    rw [Value.sameFields, Bool.and_eq_true, ih fun e member => left e (by simp [member]),
      List.forall_mem_cons]
    refine and_congr_left fun _ => ?_
    cases found : Table.get? u mark with
    | none => simp
    | some other =>
      obtain ⟨b', rfl⟩ : ∃ b', other = .flag b' := right _ (Table.mem_of_get? found)
      rw [same_flags]
      exact ⟨fun same => by rw [same], fun same => by cases same; rfl⟩

theorem sameFields_eq_all (t u : Table Value) :
    Value.sameFields t u = t.all fun entry =>
      (Table.get? u entry.1).any fun other => entry.2.same other := by
  induction t with
  | nil => rw [Value.sameFields, List.all_nil]
  | cons entry rest ih =>
    obtain ⟨key, value⟩ := entry
    rw [Value.sameFields, List.all_cons, ih]
    cases Table.get? u key <;> rfl

theorem orElse_record (t : Table Value) : (Value.record t).orElse (.record []) = .record t := by
  cases t <;> rfl

theorem orElse_unlessEmpty (t : Table Value) : (unlessEmpty t).orElse (.record []) = .record t := by
  cases t <;> rfl

theorem same_of_perm {t u v w : Table Value} (once : (Table.keys v).Nodup) (perm : t.Perm u)
    (other : v.Perm w) :
    same (unlessEmpty t) (unlessEmpty v) = same (unlessEmpty u) (unlessEmpty w) := by
  have found := (Table.perm_iff_get? once (Table.nodup_of_perm once other)).mp other
  simp only [same, orElse_unlessEmpty, Value.same, sameFields_eq_all, found, perm.length_eq,
    other.length_eq, perm.all_eq]

theorem Flags.table? {marks : Value} (given : Flags marks) :
    ∃ t : Table Value, marks.orElse (.record []) = .record t ∧ held marks = Table.get? t ∧
      (Table.keys t).Nodup ∧ ∀ entry ∈ t, ∃ b, entry.2 = .flag b := by
  cases given with
  | nothing => exact ⟨[], rfl, rfl, List.nodup_nil, by simp⟩
  | table once flags => exact ⟨_, orElse_record _, rfl, once, flags⟩

theorem same_iff_of_flags {a b : Value} (left : Flags a) (right : Flags b) :
    same a b = true ↔ held a = held b := by
  obtain ⟨t, first, heldFirst, once, flags⟩ := left.table?
  obtain ⟨u, second, heldSecond, onceToo, flagsToo⟩ := right.table?
  rw [same, first, second, Value.same, Bool.and_eq_true, beq_iff_eq,
    sameFields_flags_iff flags flagsToo, heldFirst, heldSecond]
  constructor
  · rintro ⟨long, found⟩
    have inside : Table.keys t ⊆ Table.keys u := by
      intro mark member
      obtain ⟨entry, there, rfl⟩ := List.mem_map.mp member
      rw [← Table.get?_isSome_iff, found entry there]
      rfl
    have perm := (once.subperm inside).perm_of_length_le (by simp [Table.keys, long])
    funext mark
    cases one : Table.get? t mark with
    | some value => exact (found _ (Table.mem_of_get? one)).symm
    | none =>
      have absent : mark ∉ Table.keys u := by
        rw [← perm.mem_iff, ← Table.get?_isSome_iff, one]
        simp
      cases other : Table.get? u mark with
      | none => rfl
      | some value =>
        rw [← Table.get?_isSome_iff, other] at absent
        exact absurd rfl absent
  · intro equal
    have perm := (Table.perm_iff_get? once onceToo).mpr (congrFun equal)
    refine ⟨perm.length_eq, fun entry member => ?_⟩
    rw [← equal]
    exact Table.get?_of_mem once member

theorem Sound.flags {t : Table Value} (sound : Sound t) : Flags (unlessEmpty t) := by
  cases t with
  | nil => exact .nothing
  | cons => exact .table sound.once fun entry member => ⟨true, sound.set entry member⟩

theorem same_iff {t u : Table Value} (left : Sound t) (right : Sound u) :
    same (unlessEmpty t) (unlessEmpty u) = true ↔ held (unlessEmpty t) = held (unlessEmpty u) :=
  same_iff_of_flags left.flags right.flags

end Marks
end SemanticMarkup
