import Mathlib.Data.List.Forall2
import SemanticMarkup.Passes.Lists
import SemanticMarkup.Proofs.Merge.Runs
import SemanticMarkup.Proofs.Tree.Depth

namespace SemanticMarkup
open Walk

namespace Passes

-- An item of a list stands so many levels below the top.
def ItemAt : Nat → Node → Prop
  | 0, _ => False
  | 1, n => isList n = true ∧ ∃ c ∈ n.children, isItem c = true
  | depth + 2, n => ∃ c ∈ n.children, ItemAt (depth + 1) c

def markListsIn (n : Node) : Node := if isList n then markList n else n

theorem isList_withChildren (n : Node) (kids : List Node) : isList (n.withChildren kids) = isList n := by
  cases n <;> rfl

theorem isItem_withChildren (n : Node) (kids : List Node) : isItem (n.withChildren kids) = isItem n :=
  n.hasSourceTag_withChildren kids Tag.listItem

theorem children_markListsIn {n : Node} (none : n.children = []) : (markListsIn n).children = [] := by
  unfold markListsIn
  split
  · rw [markList, none, markItems, ← none, Node.withChildren_children, none]
  · exact none

theorem sourceTag_of_has {n : Node} {tag : String} (tagged : n.hasSourceTag tag = true) :
    n.sourceTag = .text tag := by
  unfold Node.hasSourceTag at tagged
  rw [Bool.and_eq_true] at tagged
  cases given : n.sourceTag with
  | text name => simpa [given, Value.isText, Value.text?] using tagged.2
  | _ => simp [given, Value.isText, Value.text?] at tagged

theorem isList_of_isItem {n : Node} (item : isItem n = true) : isList n = false := by
  simp [isList, sourceTag_of_has item, Tag.isList, Tag.listItem]

theorem itemAt_text (depth : Nat) (leaf : TextLeaf) : ¬ItemAt depth (.text leaf) := by
  cases depth with
  | zero => exact id
  | succ depth =>
    cases depth with
    | zero => exact fun at_ => by simp [ItemAt, Node.children] at at_
    | succ depth => exact fun at_ => by simp [ItemAt, Node.children] at at_

theorem itemAt_succ (depth : Nat) (n : Node) :
    ItemAt (depth + 1) n ↔ (isList n = true ∧ ∃ c ∈ n.children, depth = 0 ∧ isItem c = true) ∨
      ∃ c ∈ n.children, ItemAt depth c := by
  cases depth with
  | zero => simp [ItemAt]
  | succ depth => simp [ItemAt]

theorem itemAt_le {depth levels : Nat} {n : Node} (inside : Within levels n) (item : ItemAt depth n) :
    depth ≤ levels := by
  induction depth generalizing levels n with
  | zero => exact Nat.zero_le levels
  | succ depth ih =>
    have below : ∃ c ∈ n.children, depth = 0 ∨ ItemAt depth c := by
      rcases (itemAt_succ depth n).mp item with ⟨_, c, member, top, _⟩ | ⟨c, member, deep⟩
      · exact ⟨c, member, .inl top⟩
      · exact ⟨c, member, .inr deep⟩
    obtain ⟨c, member, either⟩ := below
    obtain ⟨fewer, rfl, deep⟩ := inside.child member
    rcases either with rfl | lower
    · omega
    · exact Nat.succ_le_succ (ih deep lower)

theorem itemAt_mergeWithin (levels depth : Nat) (n : Node) :
    ItemAt depth (editWithin Node.mergeChildren levels n).1 ↔ ItemAt depth n := by
  induction levels generalizing depth n with
  | zero => exact Iff.rfl
  | succ levels ih =>
    have kind : ∀ (levels : Nat) (c : Node),
        isItem (editWithin Node.mergeChildren levels c).1 = isItem c := by
      intro levels c
      cases levels with
      | zero => rfl
      | succ levels =>
        rw [editWithin_succ]
        exact (isItem_withChildren _ _).trans (isItem_withChildren _ _)
    cases n with
    | element head children =>
      have kept : ∀ P : Node → Prop, (∀ leaf, ¬P (.text leaf)) →
          (∀ c, P (editWithin Node.mergeChildren levels c).1 ↔ P c) →
          ((∃ c ∈ (editList (editWithin Node.mergeChildren levels) (Node.merged children)).1, P c) ↔
            ∃ c ∈ children, P c) :=
        fun P texts same => (exists_editList fun c _ => same c).trans (Node.exists_merged texts)
      cases depth with
      | zero => exact Iff.rfl
      | succ depth =>
        rw [itemAt_succ, itemAt_succ, editWithin_succ]
        refine or_congr (and_congr_right fun _ => ?_) ?_
        · exact kept (fun c => depth = 0 ∧ isItem c = true)
            (fun leaf => by simp [isItem, Node.hasSourceTag, Node.isElement, Node.kind, Value.isText,
              Value.text?])
            fun c => by rw [kind]
        · exact kept (ItemAt depth) (itemAt_text depth) (ih depth)
    | _ => exact Iff.rfl

-- A marked item begins with a text, and what else is in it was there before.
structure Marked (item : Node) (leaf : TextLeaf) (rest : List Node) : Prop where
  old : ∀ c ∈ rest, c ∈ item.children
  all : ∀ c ∈ item.children, (∀ leaf, c ≠ .text leaf) → c ∈ rest
  content : (∀ leaf, .text leaf ∈ item.children → ∃ s, leaf.content = .text s) →
    ∃ s, leaf.content = .text s
  marks : leaf.marks = .null ∨ ∃ first, .text first ∈ item.children ∧ leaf.marks = first.marks

theorem marked_eq (marker : String) (item : Node) :
    ∃ leaf rest, marked marker item = item.withChildren (.text leaf :: rest) ∧
      Marked item leaf rest := by
  unfold marked
  split
  · rename_i first rest given
    refine ⟨_, rest, rfl, ?_, ?_, ?_, .inr ⟨first, by simp [given], rfl⟩⟩
    · intro c member
      simp [given, member]
    · intro c member other
      rw [given] at member
      rcases List.mem_cons.mp member with rfl | later
      · exact absurd rfl (other first)
      · exact later
    · intro texts
      obtain ⟨s, content⟩ := texts first (by simp [given])
      exact ⟨marker ++ s, by simp [content, Value.mapText]⟩
  · exact ⟨_, _, rfl, fun _ => id, fun _ member _ => member, fun _ => ⟨marker, rfl⟩, .inl rfl⟩

def Turns (d c : Node) : Prop :=
  if isItem d = true then ∃ marker, c = marked marker d else c = d

theorem markItems_turns (ordered : Bool) (number : Nat) (items : List Node) :
    List.Forall₂ Turns items (markItems ordered number items) := by
  fun_induction markItems ordered number items with
  | case1 => exact .nil
  | case2 number n rest item ih =>
    refine .cons ?_ ih
    rw [Turns, if_pos item]
    exact ⟨_, rfl⟩
  | case3 number n rest other ih =>
    refine .cons ?_ ih
    rw [Turns, if_neg other]

theorem exists_related {α β : Type} {R : α → β → Prop} {before : List α} {after : List β}
    (related : List.Forall₂ R before after) {c : β} (member : c ∈ after) : ∃ d ∈ before, R d c := by
  induction related with
  | nil => cases member
  | cons one _ ih =>
    rcases List.mem_cons.mp member with rfl | later
    · exact ⟨_, List.mem_cons_self, one⟩
    · obtain ⟨d, old, other⟩ := ih later
      exact ⟨d, List.mem_cons_of_mem _ old, other⟩

theorem forall_markItems {P Q : Node → Prop} {ordered : Bool} {number : Nat} {items : List Node}
    (each : ∀ d ∈ items, ∀ c, Turns d c → (P c ↔ Q d)) :
    (∀ c ∈ markItems ordered number items, P c) ↔ ∀ d ∈ items, Q d := by
  have turned := markItems_turns ordered number items
  constructor
  · intro all d member
    have back : List.Forall₂ (flip Turns) (markItems ordered number items) items := turned.flip
    obtain ⟨c, new, turns⟩ := exists_related back member
    exact (each d member c turns).mp (all c new)
  · intro all c member
    obtain ⟨d, old, turns⟩ := exists_related turned member
    exact (each d old c turns).mpr (all d old)

theorem marked_within {levels : Nat} {item : Node} (marker : String)
    (inside : Within (levels + 1) item) : Within (levels + 1) (marked marker item) := by
  obtain ⟨leaf, rest, same, part⟩ := marked_eq marker item
  rw [same]
  cases item with
  | element head children =>
    intro c member
    rcases List.mem_cons.mp member with rfl | later
    · exact Within.of_childless rfl levels
    · exact inside c (part.old c later)
  | _ => exact inside

theorem forall_marked {P : Node → Prop} (texts : ∀ leaf, P (.text leaf)) (marker : String)
    (item : Node) : (∀ c ∈ (marked marker item).children, P c) ↔ ∀ c ∈ item.children, P c := by
  obtain ⟨leaf, rest, same, part⟩ := marked_eq marker item
  rw [same]
  cases item with
  | element head children =>
    show (∀ c ∈ .text leaf :: rest, P c) ↔ ∀ c ∈ children, P c
    constructor
    · intro all c member
      rcases c.text_or_other with ⟨text, rfl⟩ | other
      · exact texts text
      · exact all c (List.mem_cons_of_mem _ (part.all c member other))
    · intro all c member
      rcases List.mem_cons.mp member with rfl | later
      · exact texts leaf
      · exact all c (part.old c later)
  | _ => rfl

theorem itemAt_marked {item : Node} (isItem : isItem item = true) (marker : String) (depth : Nat) :
    ItemAt depth (marked marker item) ↔ ItemAt depth item := by
  cases depth with
  | zero => exact Iff.rfl
  | succ depth =>
    have plain := isList_of_isItem isItem
    have unlisted : isList (marked marker item) = false := by
      obtain ⟨leaf, rest, same, _⟩ := marked_eq marker item
      rw [same, isList_withChildren, plain]
    have below := not_congr
      (forall_marked (P := fun c => ¬ItemAt depth c) (itemAt_text depth) marker item)
    rw [itemAt_succ, itemAt_succ, plain, unlisted]
    simpa using below

end Passes
end SemanticMarkup
