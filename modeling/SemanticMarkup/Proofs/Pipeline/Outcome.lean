import SemanticMarkup.Proofs.Pipeline.Stages

namespace SemanticMarkup
open Walk Passes

namespace Ast

mutual

def mapHeads (f : AstHead → AstHead) : Ast → Ast
  | .node h children => .node (f h) (mapHeadsAll f children)

def mapHeadsAll (f : AstHead → AstHead) : List Ast → List Ast
  | [] => []
  | a :: rest => a.mapHeads f :: mapHeadsAll f rest

end

theorem mapHeadsAll_eq_map (f : AstHead → AstHead) (trees : List Ast) :
    mapHeadsAll f trees = trees.map (mapHeads f) := by
  induction trees with
  | nil => rw [mapHeadsAll, List.map_nil]
  | cons a rest ih => rw [mapHeadsAll, List.map_cons, ih]

theorem within_mapHeads (f : AstHead → AstHead) {levels : Nat} {a : Ast} (inside : Within levels a) :
    Within levels (a.mapHeads f) := by
  induction levels generalizing a with
  | zero =>
    cases a with
    | node h children =>
      have none : children = [] := inside
      subst none
      rfl
  | succ levels ih =>
    cases a with
    | node h children =>
      intro c member
      have among : c ∈ mapHeadsAll f children := by rwa [mapHeads] at member
      rw [mapHeadsAll_eq_map] at among
      obtain ⟨d, old, rfl⟩ := List.mem_map.mp among
      exact ih (inside d old)

theorem editWithin_heads (f : AstHead → AstHead) {levels depth : Nat} {a : Ast}
    (inside : Within depth a) (lt : depth < levels) :
    editWithin (fun a => .node (f a.head) a.children) levels a = (a.mapHeads f, true) := by
  induction levels generalizing depth a with
  | zero => omega
  | succ levels ih =>
    cases a with
    | node h children =>
      have each : ∀ c ∈ children,
          editWithin (fun a => .node (f a.head) a.children) levels c = (c.mapHeads f, true) := by
        intro c member
        obtain ⟨fewer, rfl, deep⟩ := inside.child member
        exact ih deep (by omega)
      rw [editWithin_all fun c member => by rw [each c member]]
      refine Prod.ext ?_ rfl
      show Ast.node (f h) (children.map _) = _
      rw [mapHeads, mapHeadsAll_eq_map]
      exact congrArg _ (List.map_congr_left fun c member => by rw [each c member])

end Ast

namespace Transformer
variable {ε σ : Type}

-- The tree that the structure pass makes of markup whose texts have been flagged.
def converted (t : Transformer ε σ) (a : Ast) : Node :=
  Node.root.withChildren (becomes t.options.styleMode .nothing (a.mapHeads flagBlank))

theorem nodesOf_flagged (t : Transformer ε σ) {a : Ast} (inside : Within maxDepth a) :
    nodesOf t.options.styleMode (a.mapHeads flagBlank) =
      .ok (becomes t.options.styleMode .nothing (a.mapHeads flagBlank)) :=
  convert_of_within t.options.styleMode _ .nothing (Ast.within_mapHeads flagBlank inside)
    (Nat.le_of_eq (Nat.zero_add maxDepth))

def grown (t : Transformer ε σ) (source : String) (n : Node) : Except Fault Node := do
  let merged ← Walk.finished Node.mergeChildren n
  let listed ← Walk.finished markListsIn merged
  let flat ← Walk.finished flattenIn listed
  (Walk.finished (served t.options.removeAllStyle.isTrue t.options.removeAllClass.isTrue) flat).mapError
    fun _ => .tooDeep depthLimit "capability" (.text source) none

theorem markup_flagged {a : Ast} (inside : Within maxDepth a) (n : Node) :
    markupStep flagAst (a, n) = .ok (a.mapHeads flagBlank, n) := by
  unfold markupStep Walk.finished editAll flagAst
  rw [Ast.editWithin_heads flagBlank inside (Nat.lt_succ_self maxDepth)]
  rfl

theorem filled_of_within (t : Transformer ε σ) {a : Ast} (inside : Within maxDepth a) (source : String) :
    fillStep t.options.styleMode source (a.mapHeads flagBlank, .root) =
      .ok (a.mapHeads flagBlank, t.converted a) := by
  unfold fillStep
  rw [nodesOf_flagged t inside]
  rfl

theorem grown_steps (t : Transformer ε σ) (source : String) (a : Ast) (n : Node) :
    ((treeStep Node.mergeChildren >=> treeStep markListsIn >=> treeStep flattenIn) (a, n) >>=
        t.capabilityStep source) = (t.grown source n).map fun m => (a, m) := by
  simp only [grown, treeStep, capabilityStep, Bind.kleisliRight, bind_of_map, bind_assoc, map_of_bind]

theorem passes_of_within (t : Transformer ε σ) {a : Ast} (inside : Within maxDepth a)
    (source : String) :
    t.passes source (a, .root) =
      (t.grown source (t.converted a)).map fun n => (a.mapHeads flagBlank, n) := by
  rw [← grown_steps]
  show (markupStep flagAst (a, .root) >>= fun reached =>
    (fillStep t.options.styleMode source reached >>= _) >>= _) = _
  rw [markup_flagged inside]
  show ((fillStep t.options.styleMode source (a.mapHeads flagBlank, .root) >>= _) >>= _) = _
  rw [filled_of_within t inside]
  rfl

theorem complete_of_within (t : Transformer ε σ) (unchanged : t.plugins = builtin) {a : Ast}
    (inside : Within maxDepth a) (source : String) (shared : σ) :
    (t.complete.exec (t.start a source shared)).1 =
      (t.grown source (t.converted a) >>= t.delivered) := by
  rw [complete_eq t unchanged, passes_of_within t inside, bind_of_map]

end Transformer
end SemanticMarkup
