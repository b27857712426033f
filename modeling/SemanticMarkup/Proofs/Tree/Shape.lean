import SemanticMarkup.Walk

namespace SemanticMarkup

@[elab_as_elim]
theorem Ast.induct {motive : Ast → Prop}
    (node : ∀ head children, (∀ c ∈ children, motive c) → motive (.node head children)) (a : Ast) :
    motive a := by
  refine @Ast.rec motive (fun children => ∀ c ∈ children, motive c) node ?_ ?_ a
  · intro c member
    cases member
  · intro first rest one others c member
    rcases List.mem_cons.mp member with rfl | later
    · exact one
    · exact others c later

@[elab_as_elim]
theorem Node.induct {motive : Node → Prop}
    (element : ∀ head children, (∀ c ∈ children, motive c) → motive (.element head children))
    (barren : ∀ head given, motive (.barren head given)) (text : ∀ leaf, motive (.text leaf))
    (alien : ∀ kind, motive (.alien kind)) (n : Node) : motive n := by
  refine @Node.rec motive (fun children => ∀ c ∈ children, motive c) element barren text alien
    ?_ ?_ n
  · intro c member
    cases member
  · intro first rest one others c member
    rcases List.mem_cons.mp member with rfl | later
    · exact one
    · exact others c later

-- Children put into a tree can be read back, if there are as many of them as there were.
class Reshaping (α : Type) [Branching α] : Prop where
  children_withChildren : ∀ (a : α) (kids : List α),
    kids.length = (Branching.children a).length →
      Branching.children (Branching.withChildren a kids) = kids

instance : Reshaping Ast where
  children_withChildren a kids _ := by
    cases a
    rfl

instance : Reshaping Node where
  children_withChildren n kids long := by
    cases n with
    | element => rfl
    | _ => exact (List.eq_nil_of_length_eq_zero long).symm

theorem Node.hasSourceTag_withChildren (n : Node) (kids : List Node) (tag : String) :
    (n.withChildren kids).hasSourceTag tag = n.hasSourceTag tag := by
  cases n <;> rfl

namespace Walk
variable {α : Type} [Branching α]

-- Nothing in a tree lies more than so many levels below its top.
def Within : Nat → α → Prop
  | 0, a => Branching.children a = []
  | levels + 1, a => ∀ c ∈ Branching.children a, Within levels c

theorem Within.succ {levels : Nat} {a : α} (inside : Within levels a) : Within (levels + 1) a := by
  induction levels generalizing a with
  | zero =>
    intro c member
    rw [show Branching.children a = [] from inside] at member
    cases member
  | succ levels ih => exact fun c member => ih (inside c member)

theorem Within.mono {few many : Nat} {a : α} (inside : Within few a) (le : few ≤ many) :
    Within many a := by
  induction le with
  | refl => exact inside
  | step _ ih => exact ih.succ

theorem Within.of_childless {a : α} (none : Branching.children a = []) (levels : Nat) :
    Within levels a := by
  have bottom : Within 0 a := none
  exact bottom.mono (Nat.zero_le levels)

theorem Within.child {levels : Nat} {a c : α} (inside : Within levels a)
    (member : c ∈ Branching.children a) : ∃ fewer, levels = fewer + 1 ∧ Within fewer c := by
  cases levels with
  | zero =>
    rw [show Branching.children a = [] from inside] at member
    cases member
  | succ levels => exact ⟨levels, rfl, inside c member⟩

theorem within_withChildren [Reshaping α] {levels : Nat} {a : α} {kids : List α}
    (long : kids.length = (Branching.children a).length) (inside : ∀ c ∈ kids, Within levels c) :
    Within (levels + 1) (Branching.withChildren a kids) := by
  intro c member
  rw [Reshaping.children_withChildren a kids long] at member
  exact inside c member

inductive Everywhere (P : α → Prop) : α → Prop where
  | intro {a : α} (here : P a) (inside : ∀ c ∈ Branching.children a, Everywhere P c) : Everywhere P a

namespace Everywhere
variable {P : α → Prop}

theorem here {a : α} (all : Everywhere P a) : P a := by
  cases all with
  | intro here _ => exact here

theorem inside {a : α} (all : Everywhere P a) : ∀ c ∈ Branching.children a, Everywhere P c := by
  cases all with
  | intro _ inside => exact inside

theorem of_childless {a : α} (none : Branching.children a = []) (here : P a) : Everywhere P a := by
  refine .intro here ?_
  rw [none]
  simp

theorem imp {Q : α → Prop} {a : α} (all : Everywhere P a) (each : ∀ b, P b → Q b) :
    Everywhere Q a := by
  induction all with
  | intro here _ ih => exact .intro (each _ here) ih

theorem and {Q : α → Prop} {a : α} (one : Everywhere P a) (other : Everywhere Q a) :
    Everywhere (fun b => P b ∧ Q b) a := by
  induction one with
  | intro here _ ih => exact .intro ⟨here, other.here⟩ fun c member => ih c member (other.inside c member)

theorem iff_inside {a : α} :
    Everywhere P a ↔ P a ∧ ∀ c ∈ Branching.children a, Everywhere P c :=
  ⟨fun all => ⟨all.here, all.inside⟩, fun ⟨here, inside⟩ => .intro here inside⟩

theorem congr {Q R : α → Prop} {a : α} (all : Everywhere R a) (each : ∀ b, R b → (P b ↔ Q b)) :
    Everywhere P a ↔ Everywhere Q a := by
  induction all with
  | intro here _ ih =>
    rw [iff_inside, iff_inside]
    exact and_congr (each _ here) (forall₂_congr ih)

end Everywhere

theorem everywhere_element {P : Node → Prop} {head : ElementHead} {children : List Node} :
    Everywhere P (.element head children) ↔
      P (.element head children) ∧ ∀ c ∈ children, Everywhere P c :=
  ⟨fun all => ⟨all.here, all.inside⟩, fun ⟨here, inside⟩ => .intro here inside⟩

theorem everywhere_of_all {P : Node → Prop} (all : ∀ n, P n) (n : Node) : Everywhere P n := by
  induction n using Node.induct with
  | element head children ih => exact everywhere_element.mpr ⟨all _, ih⟩
  | _ => exact .of_childless rfl (all _)

theorem everywhere_node {P : Ast → Prop} {h : AstHead} {children : List Ast} :
    Everywhere P (.node h children) ↔ P (.node h children) ∧ ∀ c ∈ children, Everywhere P c :=
  ⟨fun all => ⟨all.here, all.inside⟩, fun ⟨here, inside⟩ => .intro here inside⟩

theorem everywhere_of_each {P : Ast → Prop} (each : ∀ a, P a) (a : Ast) : Everywhere P a := by
  induction a using Ast.induct with
  | node head children ih => exact everywhere_node.mpr ⟨each _, ih⟩

end Walk
end SemanticMarkup
