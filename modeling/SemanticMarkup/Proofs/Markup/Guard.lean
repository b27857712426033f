import SemanticMarkup.Ast.OfMarkup
import SemanticMarkup.Proofs.Table
import SemanticMarkup.Proofs.Text.Lowering
import SemanticMarkup.Proofs.Tree.Preorder

namespace SemanticMarkup
open Walk Markup

namespace Markup.Piece

def listed (depth : Nat) : List Piece → List (Piece × Nat)
  | [] => []
  | .declaration :: rest => (.declaration, depth) :: listed depth rest
  | .text data :: rest => (.text data, depth) :: listed depth rest
  | .tag name attributes children :: rest =>
    (.tag name attributes children, depth) :: (listed (depth + 1) children ++ listed depth rest)

-- What a piece is in a markup tree. A declaration is nothing there.
def head? : Piece → Option AstHead
  | .declaration => none
  | .text data => some (.text data)
  | .tag name attributes _ => some (Ast.tagHead name attributes)

def headAtDepth? (w : Piece × Nat) : Option (AstHead × Nat) := w.1.head?.map fun h => (h, w.2)

end Markup.Piece

structure AstHead.Orderly (h : AstHead) : Prop where
  below : h.kind ≠ .root
  text : h.kind = .text ↔ h.name = .null
  tag : h.kind = .tag ↔ ∃ name, h.name = .text name ∧ name ≠ "script" ∧ name ≠ "style"
  script : h.kind = .script ↔ h.name = .text "script"
  style : h.kind = .style ↔ h.name = .text "style"
  name : ∀ name, h.name = .text name → Text.lowered name = name
  keys : ∀ key ∈ Table.keys h.attributes, Text.lowered key = key
  once : (Table.keys h.attributes).Nodup

namespace Ast

theorem text_orderly (data : String) : (AstHead.text data).Orderly where
  below := nofun
  text := ⟨fun _ => rfl, fun _ => rfl⟩
  tag := ⟨nofun, nofun⟩
  script := ⟨nofun, nofun⟩
  style := ⟨nofun, nofun⟩
  name := nofun
  keys := nofun
  once := List.nodup_nil

theorem kind_tag (name : String) (attributes : Table String) :
    (AstHead.tag name attributes).kind =
      if name = "script" then .script else if name = "style" then .style else .tag := rfl

theorem keys_tagHead (name : String) (attributes : Table Value) :
    Table.keys (tagHead name attributes).attributes =
      Table.keys (Table.ofPairs (attributes.map fun entry =>
        (Text.lowered entry.1, attributeText entry.2))) := by
  show (Table.mapValues Value.text _).map Prod.fst = _
  rw [Table.mapValues, List.map_map]
  rfl

theorem tagHead_orderly (name : String) (attributes : Table Value) :
    (tagHead name attributes).Orderly := by
  have named : (tagHead name attributes).name = .text (Text.lowered name) := rfl
  have kind := kind_tag (Text.lowered name)
    (Table.ofPairs (attributes.map fun entry => (Text.lowered entry.1, attributeText entry.2)))
  rw [← tagHead] at kind
  have low : ∀ entry ∈ Table.ofPairs (attributes.map fun entry =>
      (Text.lowered entry.1, attributeText entry.2)), Text.lowered entry.1 = entry.1 := by
    refine Table.forall_ofPairs (List.forall_mem_map.mpr fun entry _ => ?_)
    exact Text.lowered_lowered entry.1
  refine ⟨?below, ?text, ?tag, ?script, ?style, ?names, ?keys, ?once⟩
  case names =>
    rintro _ ⟨⟩
    exact Text.lowered_lowered name
  case keys =>
    rw [keys_tagHead]
    exact List.forall_mem_map.mpr low
  case once =>
    rw [keys_tagHead]
    exact Table.ofPairs_once _
  all_goals grind

theorem orderly_of_head? {piece : Piece} {h : AstHead} (head : piece.head? = some h) : h.Orderly := by
  cases piece with
  | declaration => cases head
  | text data =>
    cases head
    exact text_orderly data
  | tag name attributes children =>
    cases head
    exact tagHead_orderly name attributes

-- The trees of pieces, however deep they stand.
def unguarded : List Piece → List Ast
  | [] => []
  | .declaration :: rest => unguarded rest
  | .text data :: rest => .node (.text data) [] :: unguarded rest
  | .tag name attributes children :: rest =>
    .node (tagHead name attributes) (unguarded children) :: unguarded rest

-- Nothing of trees that stand at a depth is too deep for a walk.
def fits (depth : Nat) (trees : List Ast) : Bool := (trees.flatMap (withDepths depth)).all reachable

theorem withDepths_node (depth : Nat) (h : AstHead) (children : List Ast) :
    withDepths depth (Ast.node h children) =
      (Ast.node h children, depth) :: children.flatMap (withDepths (depth + 1)) :=
  withDepths_eq depth (Ast.node h children)

theorem fits_node (depth : Nat) (h : AstHead) (children rest : List Ast) :
    fits depth (.node h children :: rest) =
      (decide (depth ≤ maxDepth) && (fits (depth + 1) children && fits depth rest)) := by
  rw [fits, List.flatMap_cons, withDepths_node, List.cons_append, List.all_cons, List.all_append]
  rfl

theorem ofPieces_unguarded (depth : Nat) (pieces : List Piece) :
    ofPieces depth pieces =
      if fits depth (unguarded pieces) then .ok (unguarded pieces) else .error depthRefusal := by
  fun_induction ofPieces depth pieces with
  | case1 =>
    rw [unguarded]
    rfl
  | case2 depth rest ih =>
    rw [unguarded]
    exact ih
  | case3 depth data rest deep =>
    rw [unguarded, fits_node, decide_eq_false (Nat.not_le.mpr deep)]
    rfl
  | case4 depth data rest fine ih =>
    rw [unguarded, fits_node, decide_eq_true (Nat.not_lt.mp fine), ih]
    cases fits depth (unguarded rest) with
    | true => rfl
    | false => rfl
  | case5 depth name attributes children rest deep =>
    rw [unguarded, fits_node, decide_eq_false (Nat.not_le.mpr deep)]
    rfl
  | case6 depth name attributes children rest fine inner outer =>
    rw [unguarded, fits_node, decide_eq_true (Nat.not_lt.mp fine), inner, outer]
    cases fits (depth + 1) (unguarded children) with
    | false => rfl
    | true =>
      cases fits depth (unguarded rest) with
      | true => rfl
      | false => rfl

theorem overdeep_root (trees : List Ast) : overdeep (Ast.node .root trees) = !fits 1 trees := by
  rw [← Bool.not_not (overdeep _), ← all_reachable, withDepths_node, List.all_cons]
  rfl

theorem ofDocument_unguarded (pieces : List Piece) :
    ofDocument pieces =
      if fits 1 (unguarded pieces) then .ok (.node .root (unguarded pieces))
      else .error depthRefusal := by
  rw [ofDocument, ofPieces_unguarded]
  cases fits 1 (unguarded pieces) with
  | true => rfl
  | false => rfl

theorem ofDocument_ok_iff (pieces : List Piece) :
    (∃ a, ofDocument pieces = .ok a) ↔ fits 1 (unguarded pieces) = true := by
  rw [ofDocument_unguarded]
  cases fits 1 (unguarded pieces) with
  | true => exact ⟨fun _ => rfl, fun _ => ⟨_, rfl⟩⟩
  | false => exact ⟨nofun, nofun⟩

def headAtDepth (w : Ast × Nat) : AstHead × Nat := (w.1.head, w.2)

theorem withDepths_unguarded (depth : Nat) (pieces : List Piece) :
    ((unguarded pieces).flatMap (withDepths depth)).map headAtDepth =
      (Piece.listed depth pieces).filterMap Piece.headAtDepth? := by
  fun_induction Piece.listed depth pieces with
  | case1 =>
    rw [unguarded]
    rfl
  | case2 depth rest ih =>
    rw [unguarded, ih]
    rfl
  | case3 depth data rest ih =>
    rw [unguarded, List.flatMap_cons, withDepths_node, List.map_append, ih]
    rfl
  | case4 depth name attributes children rest inner outer =>
    rw [unguarded, List.flatMap_cons, withDepths_node, List.map_append, outer, List.map_cons, inner,
      List.filterMap_cons, List.filterMap_append]
    rfl

theorem unguarded_orderly {depth : Nat} {pieces : List Piece} {w : Ast × Nat}
    (member : w ∈ (unguarded pieces).flatMap (withDepths depth)) : w.1.head.Orderly := by
  have told := List.mem_map_of_mem (f := headAtDepth) member
  rw [withDepths_unguarded] at told
  obtain ⟨v, _, same⟩ := List.mem_filterMap.mp told
  obtain ⟨h, head, given⟩ := Option.map_eq_some_iff.mp same
  rw [← show h = w.1.head from congrArg Prod.fst given]
  exact orderly_of_head? head

theorem head?_isSome_iff (piece : Piece) : (∃ h, piece.head? = some h) ↔ piece ≠ .declaration := by
  cases piece with
  | declaration => exact ⟨nofun, fun other => absurd rfl other⟩
  | text data => exact ⟨fun _ => nofun, fun _ => ⟨_, rfl⟩⟩
  | tag name attributes children => exact ⟨fun _ => nofun, fun _ => ⟨_, rfl⟩⟩

theorem fits_listed (depth : Nat) (pieces : List Piece) :
    fits depth (unguarded pieces) = true ↔
      ∀ w ∈ Piece.listed depth pieces, w.1 ≠ .declaration → w.2 ≤ maxDepth := by
  have heads : fits depth (unguarded pieces) = true ↔
      ∀ v ∈ ((unguarded pieces).flatMap (withDepths depth)).map headAtDepth, v.2 ≤ maxDepth := by
    rw [List.forall_mem_map, fits, List.all_eq_true]
    exact forall₂_congr fun w _ => decide_eq_true_iff
  rw [heads, withDepths_unguarded]
  constructor
  · intro shallow w member other
    obtain ⟨h, head⟩ := (head?_isSome_iff w.1).mpr other
    exact shallow (h, w.2) (List.mem_filterMap.mpr ⟨w, member, by rw [Piece.headAtDepth?, head]; rfl⟩)
  · intro shallow v member
    obtain ⟨w, old, same⟩ := List.mem_filterMap.mp member
    obtain ⟨h, head, rfl⟩ := Option.map_eq_some_iff.mp same
    exact shallow w old ((head?_isSome_iff w.1).mp ⟨h, head⟩)

-- A document is read just when its tree, made without any regard to the depth, can be walked
-- through, and that is the tree it gives: the tags and texts of the document at their places, under
-- one root.
theorem ofDocument_guarded {σ : Type} (pieces : List Piece) (call : Ast → σ → σ) (s : σ) :
    ((∃ a, ofDocument pieces = .ok a) ↔ (each call (.node .root (unguarded pieces)) s).2 = .ok ()) ∧
    ((∃ a, ofDocument pieces = .ok a) ↔
      ∀ w ∈ Piece.listed 1 pieces, w.1 ≠ .declaration → w.2 ≤ maxDepth) ∧
    (∀ a, ofDocument pieces = .ok a → a = .node .root (unguarded pieces)) ∧
    (∀ f, ofDocument pieces = .error f → f = depthRefusal) ∧
    ((unguarded pieces).flatMap (withDepths 1)).map headAtDepth =
      (Piece.listed 1 pieces).filterMap Piece.headAtDepth? ∧
    ∀ w ∈ (unguarded pieces).flatMap (withDepths 1), w.1.head.Orderly := by
  refine ⟨?_, ?_, ?_, ?_, withDepths_unguarded 1 pieces, fun w member => unguarded_orderly member⟩
  · rw [ofDocument_ok_iff, each_nodes, nodes_withinReach, overdeep_root]
    cases fits 1 (unguarded pieces) with
    | true => exact ⟨fun _ => rfl, fun _ => rfl⟩
    | false => exact ⟨nofun, nofun⟩
  · rw [ofDocument_ok_iff, fits_listed]
  · intro a read
    rw [ofDocument_unguarded] at read
    split at read
    · cases read
      rfl
    · cases read
  · intro f refused
    rw [ofDocument_unguarded] at refused
    split at refused
    · cases refused
    · cases refused
      rfl

def shell : Nat → List Piece
  | 0 => [.declaration]
  | levels + 1 => [.tag "B" [] (shell levels)]

theorem listed_shell (depth levels : Nat) {w : Piece × Nat}
    (member : w ∈ Piece.listed depth (shell levels)) (other : w.1 ≠ .declaration) :
    w.2 < depth + levels := by
  induction levels generalizing depth with
  | zero =>
    rw [shell, Piece.listed, Piece.listed] at member
    rw [List.mem_singleton.mp member] at other
    exact absurd rfl other
  | succ levels ih =>
    rw [shell, Piece.listed, Piece.listed, List.append_nil] at member
    rcases List.mem_cons.mp member with rfl | below
    · show depth < depth + (levels + 1)
      omega
    · have := ih (depth + 1) below
      omega

theorem bottom_shell (depth levels : Nat) :
    ∃ w ∈ Piece.listed depth (shell (levels + 1)), w.1 ≠ .declaration ∧ w.2 = depth + levels := by
  induction levels generalizing depth with
  | zero =>
    rw [shell, Piece.listed]
    exact ⟨_, List.mem_cons_self, nofun, rfl⟩
  | succ levels ih =>
    obtain ⟨w, member, other, deep⟩ := ih (depth + 1)
    refine ⟨w, ?_, other, by omega⟩
    rw [shell, Piece.listed, Piece.listed, List.append_nil]
    exact List.mem_cons_of_mem _ member

theorem shell_read :
    (∃ a, ofDocument (shell 512) = .ok a) ∧
    (each (fun _ n => n + 1) (Ast.node .root (unguarded (shell 512))) 0).2 = .ok () ∧
    ofDocument (shell 513) = .error depthRefusal := by
  obtain ⟨walked, near, _⟩ := ofDocument_guarded (shell 512) (fun _ n => n + 1) 0
  obtain ⟨_, nearToo, _, refused, _⟩ := ofDocument_guarded (shell 513) (fun _ n => n + 1) 0
  have read : ∃ a, ofDocument (shell 512) = .ok a := near.mpr fun w member other => by
    have := listed_shell 1 512 member other
    rw [maxDepth]
    omega
  refine ⟨read, walked.mp read, ?_⟩
  cases result : ofDocument (shell 513) with
  | ok a =>
    obtain ⟨w, member, other, deep⟩ := bottom_shell 1 512
    have := nearToo.mp ⟨a, result⟩ w member other
    rw [deep, maxDepth] at this
    omega
  | error f => rw [refused f result]

end Ast
end SemanticMarkup
