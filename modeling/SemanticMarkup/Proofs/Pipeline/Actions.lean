import SemanticMarkup.Passes.Normalize
import SemanticMarkup.Passes.Structure
import SemanticMarkup.Proofs.Merge.Runs

namespace SemanticMarkup

namespace Action
variable {κ σ α β : Type}

theorem exec_lift (result : Except Fault α) (ctx : Context κ σ) :
    (liftM result : Action κ σ α).exec ctx = (result, ctx) := by
  cases result with
  | ok a => rfl
  | error f => rfl

theorem exec_bind (first : Action κ σ α) (next : α → Action κ σ β) (ctx : Context κ σ) :
    (first >>= next).exec ctx =
      match first.exec ctx with
      | (.ok a, after) => (next a).exec after
      | (.error f, after) => (.error f, after) := by
  unfold exec ExceptT.run StateT.run
  simp only [bind, ExceptT.bind, ExceptT.mk, StateT.bind, ExceptT.bindCont]
  cases first ctx with
  | mk result after => cases result <;> rfl

theorem exec_get_bind (next : Context κ σ → Action κ σ β) (ctx : Context κ σ) :
    (get >>= next).exec ctx = (next ctx).exec ctx := rfl

theorem exec_editNodes (edit : Node → Node) (ctx : Context κ σ) :
    (editNodes edit : Action κ σ Unit).exec ctx =
      ((Walk.edited edit ctx.root).2, { ctx with root := (Walk.edited edit ctx.root).1 }) := by
  unfold editNodes
  rw [exec_get_bind]
  cases Walk.edited edit ctx.root with
  | mk root result => cases result <;> rfl

theorem editNodes_ok {edit : Node → Node} {ctx after : Context κ σ}
    (ran : (editNodes edit : Action κ σ Unit).exec ctx = (.ok (), after)) :
    (Walk.editAll edit ctx.root).2 = true ∧
      after = { ctx with root := (Walk.editAll edit ctx.root).1 } := by
  rw [exec_editNodes, Walk.edited_fst, Walk.edited_snd] at ran
  cases done : (Walk.editAll edit ctx.root).2 with
  | false =>
    rw [done] at ran
    cases ran
  | true =>
    rw [done, if_pos rfl] at ran
    cases ran
    exact ⟨rfl, rfl⟩

theorem exec_editMarkup (edit : AstHead → AstHead) (ctx : Context κ σ) :
    (editMarkup edit : Action κ σ Unit).exec ctx =
      ((Walk.edited (fun a => Ast.node (edit a.head) a.children) ctx.ast).2,
        { ctx with ast := (Walk.edited (fun a => Ast.node (edit a.head) a.children) ctx.ast).1 }) := by
  unfold editMarkup
  rw [exec_get_bind]
  cases Walk.edited (fun a => Ast.node (edit a.head) a.children) ctx.ast with
  | mk ast result => cases result <;> rfl

end Action

namespace Passes
open SemanticMarkup.Action
variable {κ σ : Type}

theorem exec_structured {ctx : Context κ σ} {mode : StyleMode} (holds : ctx.root.isElement = true)
    (chosen : StyleMode.ofValue (ctx.option "style_mode" (.text "inline")) = .ok mode) :
    (structured : Action κ σ Unit).exec ctx =
      match nodesOf mode ctx.ast with
      | .ok nodes => (.ok (), { ctx with root := ctx.root.withChildren (ctx.root.children ++ nodes) })
      | .error f => (.error (f.withSource ctx.source), ctx) := by
  unfold structured
  rw [exec_get_bind]
  simp only [holds, Bool.not_true, Bool.false_eq_true, if_false, chosen]
  rw [exec_bind, exec_lift]
  dsimp only
  cases nodesOf mode ctx.ast with
  | ok nodes => rfl
  | error f => rfl

theorem structured_cases {ctx after : Context κ σ} {result : Except Fault Unit}
    (ran : (structured : Action κ σ Unit).exec ctx = (result, after)) :
    (∃ kind message, result = .error (.plain kind message) ∧ after = ctx) ∨
      ∃ mode, (∃ nodes, nodesOf mode ctx.ast = .ok nodes ∧ result = .ok () ∧
          after = { ctx with root := ctx.root.withChildren (ctx.root.children ++ nodes) }) ∨
        ∃ f, nodesOf mode ctx.ast = .error f ∧ result = .error (f.withSource ctx.source) ∧
          after = ctx := by
  cases holds : ctx.root.isElement with
  | false =>
    unfold structured at ran
    rw [Action.exec_get_bind, holds] at ran
    cases ran
    exact .inl ⟨_, _, rfl, rfl⟩
  | true =>
    cases chosen : StyleMode.ofValue (ctx.option "style_mode" (.text "inline")) with
    | error f =>
      obtain ⟨message, rfl⟩ : ∃ message, f = .value message := by
        unfold StyleMode.ofValue at chosen
        split at chosen
        · cases chosen
        · cases chosen
          exact ⟨_, rfl⟩
      unfold structured at ran
      rw [Action.exec_get_bind, holds, chosen] at ran
      cases ran
      exact .inl ⟨_, _, rfl, rfl⟩
    | ok mode =>
      rw [exec_structured holds chosen] at ran
      refine .inr ⟨mode, ?_⟩
      cases converted : nodesOf mode ctx.ast with
      | error f =>
        rw [converted] at ran
        cases ran
        exact .inr ⟨f, rfl, rfl, rfl⟩
      | ok nodes =>
        rw [converted] at ran
        cases ran
        exact .inl ⟨nodes, rfl, rfl, rfl⟩

theorem exec_mergeTexts (ctx : Context κ σ) :
    (mergeTexts : Action κ σ Unit).exec ctx =
      ((Walk.edited Node.mergeChildren ctx.root).2,
        { ctx with root := (Walk.edited Node.mergeChildren ctx.root).1 }) :=
  exec_editNodes _ ctx

theorem exec_structured_mergeTexts {ctx : Context κ σ} {mode : StyleMode} {nodes : List Node}
    (fresh : ctx.root = .root)
    (chosen : StyleMode.ofValue (ctx.option "style_mode" (.text "inline")) = .ok mode)
    (converted : nodesOf mode ctx.ast = .ok nodes)
    (done : (Node.mergeAll (Node.root.withChildren nodes)).2 = true) :
    (do structured; mergeTexts : Action κ σ Unit).exec ctx =
      (.ok (), { ctx with root := (Node.mergeAll (Node.root.withChildren nodes)).1 }) := by
  rw [exec_bind, exec_structured (by rw [fresh]; rfl) chosen, converted, fresh]
  dsimp only
  rw [exec_mergeTexts, Walk.edited_fst, Walk.edited_snd]
  have all : (Walk.editAll Node.mergeChildren (Node.root.withChildren nodes)).2 = true := done
  exact Prod.ext (if_pos all) rfl

end Passes
end SemanticMarkup
