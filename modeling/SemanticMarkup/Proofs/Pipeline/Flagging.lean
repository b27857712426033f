import Mathlib.Logic.Function.Iterate
import SemanticMarkup.Proofs.Conversion.Texts
import SemanticMarkup.Proofs.Pipeline.Outcome

namespace SemanticMarkup
open Walk Passes

namespace Ast

-- A flag that tells the truth: only a text of nothing but blanks has it.
def Honest (a : Ast) : Prop :=
  a.head.blank = true → a.head.isText = true ∧ Text.isAllBlank a.head.dataText = true

instance (a : Ast) : Decidable a.Honest :=
  inferInstanceAs (Decidable (a.head.blank = true → a.head.isText = true ∧
    Text.isAllBlank a.head.dataText = true))

theorem honest_of_plain {a : Ast} (plain : a.head.blank = false) : a.Honest := by
  intro flag
  rw [plain] at flag
  cases flag

-- Trees as they are made of pieces at a depth: without flags, and nothing of them below the ceiling.
def Delivered (depth : Nat) (a : Ast) : Prop :=
  depth ≤ maxDepth ∧ Within (maxDepth - depth) a ∧ Everywhere (fun b => b.head.blank = false) a

theorem delivered_node {depth : Nat} {h : AstHead} {children : List Ast} (fits : depth ≤ maxDepth)
    (plain : h.blank = false) (inside : ∀ c ∈ children, Delivered (depth + 1) c) :
    Delivered depth (.node h children) := by
  refine ⟨fits, ?_, everywhere_node.mpr ⟨plain, fun c member => (inside c member).2.2⟩⟩
  cases children with
  | nil => exact .of_childless rfl _
  | cons first rest =>
    have lower : depth + 1 ≤ maxDepth := (inside first List.mem_cons_self).1
    have levels : maxDepth - depth = maxDepth - (depth + 1) + 1 := by omega
    rw [levels]
    exact fun c member => (inside c member).2.1

theorem ofPieces_delivered {depth : Nat} {pieces : List Markup.Piece} {trees : List Ast}
    (read : ofPieces depth pieces = .ok trees) : ∀ a ∈ trees, Delivered depth a := by
  fun_induction ofPieces depth pieces generalizing trees with
  | case1 =>
    cases read
    simp
  | case2 depth rest ih => exact ih read
  | case3 => cases read
  | case4 depth data rest fits ih =>
    obtain ⟨more, later, last⟩ := ok_of_bind read
    cases last
    refine List.forall_mem_cons.mpr ⟨?_, ih later⟩
    exact delivered_node (Nat.le_of_not_lt fits) rfl (by simp)
  | case5 => cases read
  | case6 depth name attributes children rest fits inner outer =>
    obtain ⟨inside, first, others⟩ := ok_of_bind read
    obtain ⟨more, later, last⟩ := ok_of_bind others
    cases last
    refine List.forall_mem_cons.mpr ⟨?_, outer later⟩
    exact delivered_node (Nat.le_of_not_lt fits) rfl (inner first)

theorem parseWith_delivered {reader : Reader} {markup : String} {a : Ast}
    (parsed : parseWith reader markup = .ok a) : Delivered 0 a := by
  obtain ⟨pieces, _, built⟩ := ok_of_bind parsed
  obtain ⟨trees, made, rfl⟩ := ok_of_map built
  exact delivered_node (Nat.zero_le maxDepth) rfl (ofPieces_delivered made)

end Ast

namespace Passes

theorem flagBlank_text {h : AstHead} (text : h.isText = true) :
    flagBlank h = { h with blank := Text.isAllBlank h.dataText } := if_pos text

theorem flagBlank_other {h : AstHead} (other : ¬h.isText = true) : flagBlank h = h := if_neg other

theorem flagBlank_again (h : AstHead) : flagBlank (flagBlank h) = flagBlank h := by
  by_cases text : h.isText = true
  · rw [flagBlank_text text]
    exact flagBlank_text text
  · rw [flagBlank_other text, flagBlank_other text]

theorem becomes_text (mode : StyleMode) (i : Inherited) {h : AstHead} (text : h.isText = true)
    (children : List Ast) :
    becomes mode i (.node h children) =
      if h.blank || Text.isAllBlank h.dataText then [] else [.text (i.leaf h.dataText "text")] := by
  rw [becomes_node, meaning_of_text text]
  cases h.blank || Text.isAllBlank h.dataText with
  | true => rfl
  | false => rfl

theorem becomes_text_flagged (mode : StyleMode) (i : Inherited) {h : AstHead} (text : h.isText = true)
    (honest : h.blank = true → Text.isAllBlank h.dataText = true) (children others : List Ast) :
    becomes mode i (.node (flagBlank h) others) = becomes mode i (.node h children) := by
  have skipped : (h.blank || Text.isAllBlank h.dataText) = Text.isAllBlank h.dataText := by
    cases flag : h.blank with
    | false => rfl
    | true => exact (honest flag).symm
  have still : ({ h with blank := Text.isAllBlank h.dataText } : AstHead).isText = true := text
  rw [flagBlank_text text, becomes_text mode i still, becomes_text mode i text, skipped]
  show (if Text.isAllBlank h.dataText || Text.isAllBlank h.dataText then _ else _) = _
  rw [Bool.or_self]
  rfl

theorem becomesAll_congr {mode : StyleMode} {i : Inherited} {f : Ast → Ast} {trees : List Ast}
    (same : ∀ c ∈ trees, becomes mode i (f c) = becomes mode i c) :
    becomesAll mode i (trees.map f) = becomesAll mode i trees := by
  rw [becomesAll_eq_flatMap, becomesAll_eq_flatMap, List.flatMap_map]
  exact List.flatMap_congr same

theorem becomes_flagged (mode : StyleMode) (i : Inherited) {a : Ast} (honest : Everywhere Ast.Honest a) :
    becomes mode i (a.mapHeads flagBlank) = becomes mode i a := by
  induction a using Ast.induct generalizing i with
  | node h children ih =>
    obtain ⟨here, below⟩ := everywhere_node.mp honest
    have inside : ∀ j, becomesAll mode j (children.map (Ast.mapHeads flagBlank)) =
        becomesAll mode j children :=
      fun j => becomesAll_congr fun c member => ih c member j (below c member)
    rw [Ast.mapHeads, Ast.mapHeadsAll_eq_map]
    by_cases text : h.isText = true
    · exact becomes_text_flagged mode i text (fun flag => (here flag).2) _ _
    · rw [flagBlank_other text, becomes_node, becomes_node]
      simp only [inside]

theorem nodesOf_honest (mode : StyleMode) {a : Ast} (inside : Within maxDepth a)
    (honest : Everywhere Ast.Honest a) :
    nodesOf mode a = .ok (becomes mode .nothing (a.mapHeads flagBlank)) := by
  rw [becomes_flagged mode .nothing honest]
  exact convert_of_within mode a .nothing inside (Nat.le_of_eq (Nat.zero_add maxDepth))

end Passes

namespace Walk

theorem editWithin_heads_again {f : AstHead → AstHead} (again : ∀ h, f (f h) = f h) (levels : Nat)
    (a : Ast) :
    editWithin (fun a => Ast.node (f a.head) a.children) levels
        (editWithin (fun a => Ast.node (f a.head) a.children) levels a).1 =
      editWithin (fun a => Ast.node (f a.head) a.children) levels a := by
  induction levels generalizing a with
  | zero => rfl
  | succ levels ih =>
    have below := editList_again fun c (_ : c ∈ a.children) => ih c
    rw [editWithin_succ, editWithin_succ]
    show (Ast.node (f (f a.head)) (editList _ (editList _ a.children).1).1,
      (editList _ (editList _ a.children).1).2) = _
    rw [again, below]
    rfl

theorem edited_heads_again {f : AstHead → AstHead} (again : ∀ h, f (f h) = f h) (a : Ast) :
    edited (fun a => Ast.node (f a.head) a.children) (edited (fun a => Ast.node (f a.head) a.children) a).1 =
      edited (fun a => Ast.node (f a.head) a.children) a := by
  have same := editWithin_heads_again again (maxDepth + 1) a
  rw [edited_fst]
  refine Prod.ext ?_ ?_
  · rw [edited_fst, edited_fst]
    exact congrArg Prod.fst same
  · rw [edited_snd, edited_snd, editAll, editAll, same]

end Walk

namespace Passes
variable {κ σ : Type}

def normalized (ctx : Context κ σ) : Context κ σ := ((normalize : Action κ σ Unit).exec ctx).2

theorem normalize_again (ctx : Context κ σ) :
    (normalize : Action κ σ Unit).exec (normalized ctx) = normalize.exec ctx := by
  have same := edited_heads_again flagBlank_again ctx.ast
  unfold normalized normalize
  rw [Action.exec_editMarkup, Action.exec_editMarkup, same]

theorem normalize_iterated (runs : Nat) (ctx : Context κ σ) :
    (normalize : Action κ σ Unit).exec (normalized^[runs] ctx) = normalize.exec ctx := by
  induction runs generalizing ctx with
  | zero => rfl
  | succ runs ih => rw [Function.iterate_succ_apply, ih, normalize_again]

end Passes

namespace Transformer
variable {ε σ : Type}

def withAll (o : Options (HandlerName ε) σ) : Options (HandlerName ε) σ := { o with plugins := none }

def unflagging (o : Options (HandlerName ε) σ) : Options (HandlerName ε) σ :=
  { o with plugins := some ⟨[.text "html-normalize"], [], []⟩ }

theorem unflagging_plugins (o : Options (HandlerName ε) σ) (extras : ε → Handler (HandlerName ε) σ) :
    (ofOptions (unflagging o) extras).plugins = builtin.tail := by
  have kept : (ofOptions (unflagging o) extras).plugins =
      (builtin : List (Plugin (HandlerName ε) σ)).tail.mergeSort Resolve.before := rfl
  rw [kept]
  exact List.mergeSort_of_pairwise builtin_sorted.tail

theorem reaches_unflagged {t : Transformer ε σ} (unflagged : t.plugins = builtin.tail) (a : Ast)
    (source : String) (shared : σ) :
    Reaches t source shared t.run a .root
      ((pure >=> t.structuringSteps source >=> t.capabilityStep source) (a, .root)) := by
  have phases : ∀ phase, phase ≠ .normalize →
      Resolve.inPhase t.plugins phase = Resolve.inPhase builtin phase := by
    intro phase later
    rw [unflagged]
    cases phase with
    | normalize => exact absurd rfl later
    | _ => rfl
  have idle : Resolve.inPhase t.plugins .normalize = [] := by
    rw [unflagged]
    rfl
  refine reaches_phases_from (fun phase later _ => phases phase later) ?_ ?_ fun b m _ => ?_
  · rw [idle]
    exact reaches_pure
  · intro b m same
    cases same
    rfl
  · rw [phases .capability nofun]
    exact reaches_capability

theorem passes_unflagged (t : Transformer ε σ) {a : Ast} (inside : Within maxDepth a)
    (honest : Everywhere Ast.Honest a) (source : String) :
    (pure >=> t.structuringSteps source >=> t.capabilityStep source) (a, .root) =
      (t.grown source (t.converted a)).map fun n => (a, n) := by
  have filled : fillStep t.options.styleMode source (a, .root) = .ok (a, t.converted a) := by
    unfold fillStep
    rw [nodesOf_honest t.options.styleMode inside honest]
    rfl
  rw [← grown_steps]
  show (pure (a, Node.root) >>= fun reached =>
    (fillStep t.options.styleMode source reached >>= _) >>= _) = _
  rw [pure_bind, filled]
  rfl

theorem complete_unflagged {t : Transformer ε σ} (unflagged : t.plugins = builtin.tail) {a : Ast}
    (inside : Within maxDepth a) (honest : Everywhere Ast.Honest a) (source : String) (shared : σ) :
    (t.complete.exec (t.start a source shared)).1 =
      (t.grown source (t.converted a) >>= t.delivered) := by
  rw [complete_of_reached (reaches_unflagged unflagged a source shared),
    passes_unflagged t inside honest, bind_of_map]

theorem complete_same (o : Options (HandlerName ε) σ) (extras : ε → Handler (HandlerName ε) σ)
    {a : Ast} (inside : Within maxDepth a) (honest : Everywhere Ast.Honest a) (source : String)
    (shared : σ) :
    ((ofOptions (unflagging o) extras).complete.exec
        ((ofOptions (unflagging o) extras).start a source shared)).1 =
      ((ofOptions (withAll o) extras).complete.exec
        ((ofOptions (withAll o) extras).start a source shared)).1 := by
  rw [complete_unflagged (unflagging_plugins o extras) inside honest,
    complete_of_within _ (ofOptions_plugins (withAll o) extras rfl) inside]
  rfl

theorem transform_same (o : Options (HandlerName ε) σ) (extras : ε → Handler (HandlerName ε) σ)
    (reader : Ast.Reader) (markup : String) (shared : σ) :
    ((ofOptions (unflagging o) extras).transformWith reader markup shared).1 =
      ((ofOptions (withAll o) extras).transformWith reader markup shared).1 := by
  unfold transformWith readWith
  cases parsed : Ast.parseWith reader markup with
  | error f => rfl
  | ok a =>
    obtain ⟨_, inside, plain⟩ := Ast.parseWith_delivered parsed
    exact complete_same o extras inside (plain.imp fun _ => Ast.honest_of_plain) markup shared

-- Markup whose flags are honest makes the same nodes or the same fault, whether its texts are flagged
-- first or not. What any reader of texts delivers is such markup, so that the outcome for a text is the
-- same. To flag texts more than once does nothing more.
theorem flagging_transparent (o : Options (HandlerName ε) σ) (extras : ε → Handler (HandlerName ε) σ)
    {a : Ast} (inside : Within maxDepth a) (honest : Everywhere Ast.Honest a) (source : String)
    (shared : σ) :
    ((ofOptions (unflagging o) extras).complete.exec
        ((ofOptions (unflagging o) extras).start a source shared)).1 =
      ((ofOptions (withAll o) extras).complete.exec
        ((ofOptions (withAll o) extras).start a source shared)).1 ∧
      (∀ (reader : Ast.Reader) (markup : String),
        ((ofOptions (unflagging o) extras).transformWith reader markup shared).1 =
          ((ofOptions (withAll o) extras).transformWith reader markup shared).1) ∧
      ∀ (runs : Nat) (ctx : Context (HandlerName ε) σ),
        normalize.exec (normalized^[runs] ctx) = normalize.exec ctx :=
  ⟨complete_same o extras inside honest source shared,
    fun reader markup => transform_same o extras reader markup shared, normalize_iterated⟩

def spacedPage : Ast :=
  .node .root [.node { AstHead.text "\n" with blank := true } [], .node (.tag "p" []) [
    .node { AstHead.text " " with blank := true } [], .node (.text "a") [], .node (.text " ") []]]

theorem spacedPage_transparent :
    Within maxDepth spacedPage ∧ Everywhere Ast.Honest spacedPage ∧
      ((ofOptions (unflagging usual.options) nofun).complete.exec
          ((ofOptions (unflagging usual.options) nofun).start spacedPage "" ())).1 =
        ((ofOptions (withAll usual.options) nofun).complete.exec
          ((ofOptions (withAll usual.options) nofun).start spacedPage "" ())).1 := by
  have shallow : Within 2 spacedPage := by
    simp [spacedPage, Within, Branching.children, Ast.children]
  have deep : Within maxDepth spacedPage := shallow.mono (by decide)
  have honest : Everywhere Ast.Honest spacedPage := by
    simp only [spacedPage, everywhere_node, List.forall_mem_cons, List.not_mem_nil, false_implies,
      implies_true, and_true]
    decide
  exact ⟨deep, honest, (flagging_transparent usual.options nofun deep honest "" ()).1⟩

end Transformer
end SemanticMarkup
