import SemanticMarkup.Proofs.Pipeline.Batching
import SemanticMarkup.Proofs.Validity.Passes

namespace SemanticMarkup
open Walk Passes Dispatch

namespace Passes

theorem harmless_onElement (h : CapabilityHandler) : Harmless h.onElement := by
  intro head children
  have element : (Node.element head children).isElement = true := rfl
  unfold CapabilityHandler.onElement
  rw [if_pos element]
  exact harmless_edit h head children

theorem harmless_onElements (handlers : List CapabilityHandler) : Harmless (onElements handlers) := by
  induction handlers with
  | nil => exact fun head children => ⟨head, rfl, id⟩
  | cons h rest ih => exact (harmless_onElement h).comp ih

theorem onElements_text (handlers : List CapabilityHandler) (leaf : TextLeaf) :
    onElements handlers (.text leaf) = .text leaf := by
  induction handlers with
  | nil => rfl
  | cons h rest ih => exact ih

theorem Harmless.here {edit : Node → Node} (harmless : Harmless edit)
    (texts : ∀ leaf, edit (.text leaf) = .text leaf) {n : Node} (proper : n.Proper) :
    (edit n).Proper := by
  cases n with
  | element head children =>
    obtain ⟨changed, same, kept⟩ := harmless head children
    rw [same]
    exact kept proper
  | text leaf => rwa [texts leaf]
  | _ => exact proper.elim

end Passes

namespace Transformer
variable {ε σ : Type} {t : Transformer ε σ} {ctx after : Context (HandlerName ε) σ}

-- What holds whichever of the builtin plugins have run: the tree is one that no check objects to,
-- whatever its root is filled with next.
structure Ready (ctx : Context (HandlerName ε) σ) : Prop where
  top : ctx.ast.head.kind = .root
  filled : ∀ kids, (ctx.root.withChildren kids).Proper
  proper : Everywhere Node.Proper ctx.root
  imaged : Everywhere Node.Imaged ctx.root
  inside : Within maxDepth ctx.root

theorem ready_start (t : Transformer ε σ) {a : Ast} (top : a.head.kind = .root) (source : String)
    (shared : σ) : Ready (t.start a source shared) where
  top := top
  filled _ := ⟨⟨"root", by decide, rfl⟩, ⟨[], rfl⟩, rfl, nofun⟩
  proper := .of_childless rfl ⟨⟨"root", by decide, rfl⟩, ⟨[], rfl⟩, rfl, nofun⟩
  imaged := .of_childless rfl nofun
  inside := .of_childless rfl _

def Keeps (action : Action (HandlerName ε) σ Unit) : Prop :=
  ∀ ctx after, Ready ctx → action.exec ctx = (.ok (), after) → Ready after

theorem keeps_pure : Keeps (pure () : Action (HandlerName ε) σ Unit) := by
  intro ctx after ready ran
  cases ran
  exact ready

theorem Keeps.bind {first next : Action (HandlerName ε) σ Unit} (one : Keeps first)
    (other : Keeps next) : Keeps (do first; next) := by
  intro ctx after ready ran
  rw [Action.exec_bind] at ran
  match went : first.exec ctx with
  | (.ok (), middle) =>
    rw [went] at ran
    exact other middle after (one ctx middle ready went) ran
  | (.error f, middle) =>
    rw [went] at ran
    cases ran

theorem Keeps.plugin {p : Plugin (HandlerName ε) σ} (work : Keeps p.work.apply) : Keeps p.run := by
  intro ctx after ready ran
  rw [Plugin.exec_run] at ran
  match went : p.work.apply.exec ctx with
  | (.ok (), middle) =>
    rw [went] at ran
    cases ran
    have kept := work ctx middle ready went
    exact ⟨kept.top, kept.filled, kept.proper, kept.imaged, kept.inside⟩
  | (.error f, middle) =>
    rw [went] at ran
    cases ran

theorem keeps_runEach {plugins : List (Plugin (HandlerName ε) σ)}
    (each : ∀ p ∈ plugins, Keeps p.work.apply) : Keeps (runEach plugins) := by
  induction plugins with
  | nil => exact keeps_pure
  | cons p rest ih =>
    exact (each p List.mem_cons_self).plugin.bind
      (ih fun q member => each q (List.mem_cons_of_mem _ member))

theorem editMarkup_ok {edit : AstHead → AstHead}
    (ran : (Action.editMarkup edit : Action (HandlerName ε) σ Unit).exec ctx = (.ok (), after)) :
    after = { ctx with
      ast := (editAll (fun a => Ast.node (edit a.head) a.children) ctx.ast).1 } := by
  rw [Action.exec_editMarkup, edited_fst, edited_snd] at ran
  cases done : (editAll (fun a => Ast.node (edit a.head) a.children) ctx.ast).2 with
  | false =>
    rw [done] at ran
    cases ran
  | true =>
    rw [done, if_pos rfl] at ran
    cases ran
    rfl

theorem keeps_editNodes {edit : Node → Node} (refills : ∀ n, ∃ kids, edit n = n.withChildren kids)
    (keeps : ∀ P, Lasting P → ∀ n, Everywhere P n → Everywhere P (edit n)) :
    Keeps (Action.editNodes edit : Action (HandlerName ε) σ Unit) := by
  intro ctx after ready ran
  obtain ⟨done, rfl⟩ := Action.editNodes_ok ran
  refine ⟨ready.top, fun kids => ?_, ?_, ?_, within_of_done done⟩
  · obtain ⟨own, same⟩ := refills ctx.root
    show (((edit ctx.root).withChildren _).withChildren kids).Proper
    rw [Node.withChildren_withChildren, same, Node.withChildren_withChildren]
    exact ready.filled kids
  · exact Node.lasting_proper.edited (keeps _ Node.lasting_proper) ready.proper
  · exact lasting_imaged.edited (keeps _ lasting_imaged) ready.imaged

theorem keeps_mergeTexts : Keeps (mergeTexts : Action (HandlerName ε) σ Unit) :=
  keeps_editNodes (fun _ => ⟨_, rfl⟩) fun _ lasting => lasting.mergeChildren

theorem keeps_markLists : Keeps (markLists : Action (HandlerName ε) σ Unit) :=
  keeps_editNodes (fun n => n.refilled_if _ _) fun _ lasting => lasting.markListsIn

theorem keeps_flattenTables : Keeps (flattenTables : Action (HandlerName ε) σ Unit) :=
  keeps_editNodes (fun n => n.refilled_if _ _) fun _ lasting => lasting.flattenIn

theorem kind_flagBlank (h : AstHead) : (flagBlank h).kind = h.kind := by
  unfold flagBlank
  split <;> rfl

theorem keeps_normalize : Keeps (normalize : Action (HandlerName ε) σ Unit) := by
  intro ctx after ready ran
  obtain rfl := editMarkup_ok ran
  refine ⟨?_, ready.filled, ready.proper, ready.imaged, ready.inside⟩
  show (flagBlank ctx.ast.head).kind = .root
  rw [kind_flagBlank]
  exact ready.top

theorem structured_ok (ran : (structured : Action (HandlerName ε) σ Unit).exec ctx = (.ok (), after)) :
    ∃ mode nodes, nodesOf mode ctx.ast = .ok nodes ∧
      after = { ctx with root := ctx.root.withChildren (ctx.root.children ++ nodes) } := by
  rcases structured_cases ran with ⟨_, _, same, _⟩ | ⟨mode, ⟨nodes, converted, _, grown⟩ | ⟨_, _, same, _⟩⟩
  · cases same
  · exact ⟨mode, nodes, converted, grown⟩
  · cases same

theorem everywhere_grown {P : Node → Prop} {n : Node} {nodes : List Node} (all : Everywhere P n)
    (here : P (n.withChildren (n.children ++ nodes))) (new : ∀ c ∈ nodes, Everywhere P c) :
    Everywhere P (n.withChildren (n.children ++ nodes)) := by
  cases n with
  | element head children =>
    refine everywhere_element.mpr ⟨here, fun c member => ?_⟩
    rcases List.mem_append.mp member with old | added
    · exact all.inside c old
    · exact new c added
  | _ => exact all

theorem within_grown {depth : Nat} {n : Node} {nodes : List Node} (inside : Within depth n)
    (deep : Within depth (Node.root.withChildren nodes)) :
    Within depth (n.withChildren (n.children ++ nodes)) := by
  cases n with
  | element head children =>
    cases depth with
    | zero =>
      have old : children = [] := inside
      have new : nodes = [] := deep
      rw [old, new]
      exact .of_childless rfl _
    | succ depth =>
      intro c member
      rcases List.mem_append.mp member with old | added
      · exact inside c old
      · exact deep c added
  | _ => exact inside

theorem keeps_structured : Keeps (structured : Action (HandlerName ε) σ Unit) := by
  intro ctx after ready ran
  obtain ⟨mode, nodes, converted, rfl⟩ := structured_ok ran
  obtain ⟨same, deep⟩ := nodesOf_ok ready.top converted
  have fresh := root_proper mode ctx.ast
  rw [← same] at fresh
  have images := root_imaged converted
  refine ⟨ready.top, fun kids => ?_, ?_, ?_, within_grown ready.inside deep⟩
  · show ((ctx.root.withChildren _).withChildren kids).Proper
    rw [Node.withChildren_withChildren]
    exact ready.filled kids
  · exact everywhere_grown ready.proper (ready.filled _) fresh.inside
  · refine everywhere_grown ready.imaged ?_ images.inside
    have here : ctx.root.Imaged := ready.imaged.here
    cases root : ctx.root with
    | _ => rwa [root] at here

theorem offers_of_mem {s : Setting (HandlerName ε) σ} {plugins : List (Plugin (HandlerName ε) σ)}
    (given : ∀ p ∈ plugins, p ∈ capabilityPlugins) :
    ∃ handlers, List.Forall₂ (@Offers ε σ s.metadata) plugins handlers := by
  induction plugins with
  | nil => exact ⟨[], .nil⟩
  | cons p rest ih =>
    obtain ⟨handlers, others⟩ := ih fun q member => given q (List.mem_cons_of_mem _ member)
    obtain ⟨h, _, offers⟩ := exists_related (offers_builtin s).flip (given p List.mem_cons_self)
    exact ⟨h :: handlers, .cons offers others⟩

theorem keeps_phase {plugins : List (Plugin (HandlerName ε) σ)}
    (given : ∀ p ∈ plugins, p ∈ capabilityPlugins) :
    Keeps (Dispatch.phase t.perform plugins .empty) := by
  intro ctx after ready ran
  obtain ⟨handlers, offers⟩ := offers_of_mem given
  obtain ⟨dressing, went, dressed⟩ := exec_phase t.extras offers Registry.holds_empty .nil
    (⟨rfl, ready.inside, ready.imaged⟩ : Dressable ctx.metadata ctx)
  have same : dressing = after := by
    rw [show (Dispatch.phase t.perform plugins .empty).exec ctx = (.ok (), dressing) from went] at ran
    cases ran
    rfl
  subst same
  have shallow := shallow_onElements handlers
  have harmless := harmless_onElements handlers
  have able := dressed.dressable ⟨rfl, ready.inside, ready.imaged⟩
  have trees := congrArg Setting.ast dressed.setting
  have markup : dressing.ast = ctx.ast := trees
  refine ⟨by rw [markup, ready.top], fun kids => ?_, ?_, able.imaged, able.inside⟩
  · rw [dressed.root]
    show (((onElements handlers ctx.root).withChildren _).withChildren kids).Proper
    rw [Node.withChildren_withChildren, ← shallow.withChildren]
    exact harmless.here (onElements_text handlers) (ready.filled kids)
  · rw [dressed.root]
    exact Node.lasting_proper.edited (harmless.proper (onElements_text handlers)) ready.proper

theorem keeps_apply {p : Plugin (HandlerName ε) σ} (given : p ∈ builtin) (other : p.phase ≠ .capability) :
    Keeps p.work.apply := by
  simp only [builtin, List.mem_cons, List.not_mem_nil, or_false] at given
  rcases given with rfl | rfl | rfl | rfl | rfl | rfl | rfl | rfl
  · exact keeps_normalize
  · exact keeps_structured
  · exact keeps_mergeTexts
  · exact keeps_markLists
  · exact keeps_flattenTables
  all_goals exact absurd rfl other

theorem keeps_runPhase (given : ∀ p ∈ t.plugins, p ∈ builtin) (phase : Phase) :
    Keeps (t.runPhase phase) := by
  have each : ∀ p ∈ Resolve.inPhase t.plugins phase, p ∈ builtin ∧ p.phase = phase := by
    intro p member
    obtain ⟨old, here⟩ := List.mem_filter.mp member
    exact ⟨given p old, beq_iff_eq.mp here⟩
  cases phase with
  | capability =>
    refine keeps_phase fun p member => List.mem_filter.mpr ⟨(each p member).1, ?_⟩
    rw [(each p member).2]
    rfl
  | _ =>
    refine keeps_runEach fun p member => keeps_apply (each p member).1 ?_
    rw [(each p member).2]
    exact nofun

theorem keeps_run (given : ∀ p ∈ t.plugins, p ∈ builtin) : Keeps t.run := by
  have phases : ∀ list : List Phase, Keeps (t.runPhases list) := by
    intro list
    induction list with
    | nil => exact keeps_pure
    | cons phase rest ih => exact (keeps_runPhase given phase).bind ih
  exact phases Phase.all

theorem complete_result {nodes : List Node}
    (fine : (t.complete.exec ctx).1 = .ok nodes) :
    ∃ after, t.run.exec ctx = (.ok (), after) ∧ nodes = resultOf after.root := by
  rw [exec_complete] at fine
  match ran : t.run.exec ctx with
  | (.error f, after) =>
    rw [ran] at fine
    cases fine
  | (.ok (), after) =>
    rw [ran] at fine
    obtain ⟨_, _, given⟩ := ok_of_bind fine
    exact ⟨after, rfl, result_of_checked given⟩

theorem check_resultOf {root : Node} (proper : root.Proper) :
    check root = Validate.nodes (resultOf root) := by
  cases root with
  | barren head given => exact proper.elim
  | _ => rfl

theorem within_resultOf {depth : Nat} {root : Node} (inside : Within (depth + 1) root) :
    ∀ n ∈ resultOf root, Within depth n := by
  intro n member
  unfold resultOf at member
  split at member
  · exact inside n member
  · rename_i other
    rw [List.mem_singleton] at member
    subst member
    cases n with
    | element head children => exact absurd rfl other
    | _ => exact .of_childless rfl _

theorem everywhere_resultOf {P : Node → Prop} {root : Node} (all : Everywhere P root) :
    ∀ n ∈ resultOf root, Everywhere P n := by
  intro n member
  unfold resultOf at member
  split at member
  · exact all.inside n member
  · rw [List.mem_singleton] at member
    rwa [member]

theorem result_valid (given : ∀ p ∈ t.plugins, p ∈ builtin) {a : Ast} (top : a.head.kind = .root)
    {source : String} {shared : σ} {nodes : List Node}
    (fine : (t.complete.exec (t.start a source shared)).1 = .ok nodes) :
    Validate.nodes nodes = .ok () ∧
      ∀ n ∈ nodes, Everywhere Node.Proper n ∧ Within (maxDepth - 1) n := by
  obtain ⟨after, ran, rfl⟩ := complete_result fine
  have ready := keeps_run given _ after (ready_start t top source shared) ran
  have checked := check_ok ready.proper ready.inside
  rw [check_resultOf ready.proper.here] at checked
  exact ⟨checked, fun n member => ⟨everywhere_resultOf ready.proper n member,
    within_resultOf ready.inside n member⟩⟩

theorem given_of_disabling {o : Options (HandlerName ε) σ}
    (disabling : ∀ c ∈ o.plugins, c.replacements = [] ∧ c.extra = [])
    (extras : ε → Handler (HandlerName ε) σ) : ∀ p ∈ (ofOptions o extras).plugins, p ∈ builtin := by
  have none : (o.plugins.getD .empty).replacements = [] ∧ (o.plugins.getD .empty).extra = [] := by
    cases given : o.plugins with
    | none => exact ⟨rfl, rfl⟩
    | some c => exact disabling c given
  intro p member
  have among := (List.mergeSort_perm _ _).mem_iff.mp member
  rw [none.2, List.append_nil] at among
  obtain ⟨q, kept, rfl⟩ := List.mem_map.mp among
  have same : Resolve.standIn (o.plugins.getD .empty) q = q := by
    rw [Resolve.standIn, none.1]
    rfl
  rw [same]
  exact (List.mem_filter.mp kept).1

-- Options that change nothing about the plugins but to disable some of them make a transform whose
-- nodes are valid: all of them are proper, and no path to one of them is too long.
theorem nodes_valid (o : Options (HandlerName ε) σ)
    (disabling : ∀ c ∈ o.plugins, c.replacements = [] ∧ c.extra = [])
    (extras : ε → Handler (HandlerName ε) σ) {a : Ast} (top : a.head.kind = .root) (source : String)
    (shared : σ) {nodes : List Node}
    (fine : ((ofOptions o extras).complete.exec ((ofOptions o extras).start a source shared)).1 =
      .ok nodes) :
    Validate.nodes nodes = .ok () ∧
      ∀ n ∈ nodes, Everywhere Node.Proper n ∧ Within (maxDepth - 1) n :=
  result_valid (given_of_disabling disabling extras) top fine

def bare : Options (HandlerName Empty) Unit :=
  ⟨.flag true, .flag false, .inline, .text Stylesheet.defaultRoot,
    some ⟨[.text "table-structure", .text "style-capability", .text "layout-capability",
      .text "media-capability"], [], []⟩, .flag false, .flag false⟩

def barePlugins : List (Plugin (HandlerName Empty) Unit) := [
  plain "html-normalize" .normalize 10 normalize,
  plain "block-structure" .structuring 10 structured,
  plain "text-merge" .structuring 15 mergeTexts,
  plain "list-structure" .structuring 20 markLists]

theorem bare_eq : ofOptions bare nofun = ⟨bare, barePlugins, nofun⟩ := by
  have plugins : Resolve.plugins builtin (bare.plugins.getD .empty) = barePlugins :=
    (List.mergeSort_of_pairwise (by decide)).trans rfl
  rw [← plugins]
  rfl

def numbered : Ast :=
  .node .root [.node (.tag "ol" []) [
    .node (.tag "li" []) [.node (.tag "b" []) [.node (.text "x") []], .node (.tag "hr" []) []],
    .node (.tag "li" []) []]]

theorem numbered_valid :
    ∃ nodes, ((ofOptions bare nofun).complete.exec ((ofOptions bare nofun).start numbered "" ())).1 =
        .ok nodes ∧ nodes.length = 1 ∧ Validate.nodes nodes = .ok () ∧
      ∀ n ∈ nodes, Everywhere Node.Proper n ∧ Within (maxDepth - 1) n := by
  have ran : ∃ nodes, ((ofOptions bare nofun).complete.exec
      ((ofOptions bare nofun).start numbered "" ())).1 = .ok nodes ∧ nodes.length = 1 := by
    rw [bare_eq]
    exact ⟨_, rfl, rfl⟩
  obtain ⟨nodes, fine, one⟩ := ran
  exact ⟨nodes, fine, one, nodes_valid bare (by decide) nofun rfl "" () fine⟩

end Transformer
end SemanticMarkup
