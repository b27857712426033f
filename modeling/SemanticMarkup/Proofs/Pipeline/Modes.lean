import SemanticMarkup.Proofs.Likeness.Modes

namespace SemanticMarkup
open Walk Passes Node

namespace Transformer
variable {ε σ : Type} {t : Transformer ε σ} {a : Ast} {source : String} {shared : σ}

def inMode (t : Transformer ε σ) (mode : StyleMode) : Transformer ε σ :=
  { t with options := { t.options with styleMode := mode } }

def treeAfter (t : Transformer ε σ) (phases : List Phase) (a : Ast) (source : String) (shared : σ) :
    Except Fault Node :=
  ((t.runPhases phases).exec (t.start a source shared)).1.map fun _ =>
    ((t.runPhases phases).exec (t.start a source shared)).2.root

theorem reaches_structure (unchanged : t.plugins = builtin) :
    Reaches t source shared (t.runPhases [.normalize, .structuring]) a .root
      ((markupStep flagAst >=> t.structuringSteps source) (a, .root)) := by
  have flagged : Reaches t source shared (runEach (Resolve.inPhase builtin .normalize)) a .root
      (markupStep flagAst (a, .root)) :=
    reaches_last (reaches_plugin reaches_normalize fun f => finished_ofTransform)
  have last : ∀ b m, Reaches t source shared (pure ()) b m (pure (b, m)) := fun b m => reaches_pure
  unfold runPhases runPhases runPhases runPhase
  rw [unchanged]
  show Reaches t source shared _ a .root (markupStep flagAst (a, .root) >>= t.structuringSteps source)
  refine flagged.bind fun b m ok => ?_
  obtain ⟨_, _, same⟩ := ok_of_map ok
  cases same
  have whole : t.structuringSteps source (b, .root) >>= pure = t.structuringSteps source (b, .root) :=
    bind_pure _
  rw [← whole]
  exact (reaches_structuring rfl).bind fun c k _ => last c k

theorem treeAfter_structure (unchanged : t.plugins = builtin) :
    t.treeAfter [.normalize, .structuring] a source shared =
      ((markupStep flagAst >=> t.structuringSteps source) (a, .root)).map Prod.snd := by
  have reached : Reaches t source shared (t.runPhases [.normalize, .structuring]) a .root
      ((markupStep flagAst >=> t.structuringSteps source) (a, .root)) := reaches_structure unchanged
  have ran := reached _ (Stage.start t source shared a)
  unfold treeAfter
  cases came : (markupStep flagAst >=> t.structuringSteps source) (a, .root) with
  | error f =>
    rw [came] at ran
    obtain ⟨after, failed⟩ := ran
    rw [failed]
    rfl
  | ok reached =>
    rw [came] at ran
    obtain ⟨after, went, stage⟩ := ran
    rw [went]
    exact congrArg Except.ok stage.root

theorem treeAfter_of_within (unchanged : t.plugins = builtin) (inside : Within maxDepth a) :
    t.treeAfter [.normalize, .structuring] a source shared = shaped (t.converted a) := by
  rw [treeAfter_structure unchanged]
  show (markupStep flagAst (a, .root) >>= fun reached =>
    fillStep t.options.styleMode source reached >>= _).map _ = _
  rw [markup_flagged inside]
  show (fillStep t.options.styleMode source (a.mapHeads flagBlank, .root) >>= _).map _ = _
  rw [filled_of_within t inside]
  show (treeStep Node.mergeChildren (a.mapHeads flagBlank, t.converted a) >>= _).map _ = _
  simp only [shaped, treeStep, Bind.kleisliRight, bind_of_map]
  cases Walk.finished Node.mergeChildren (t.converted a) with
  | error f => rfl
  | ok merged =>
    show (Walk.finished markListsIn merged >>= _).map _ = Walk.finished markListsIn merged >>= _
    cases Walk.finished markListsIn merged with
    | error f => rfl
    | ok listed =>
      show ((Walk.finished flattenIn listed).map _).map _ = Walk.finished flattenIn listed
      cases Walk.finished flattenIn listed <;> rfl

theorem treeAfter_too_deep (unchanged : t.plugins = builtin) (deep : ¬Within maxDepth a) :
    t.treeAfter [.normalize, .structuring] a source shared = .error depthFault := by
  rw [treeAfter_structure unchanged, markup_error deep]
  rfl

def SpelledTag (a : Ast) : Prop := a.head.isTag = true → Tag.Spelled a.head.tagName

-- In the two modes markup fails alike or gives the same forest up to styles and classes. After the
-- structuring phase every class has its rule, with the style that the other mode writes out, and
-- stands where there is such a style; where there is a style there is a class as well, if all tags
-- are spelled as the table of tags has them.
theorem modes_agree (t : Transformer ε σ) (unchanged : t.plugins = builtin) {a : Ast}
    (top : a.head.kind = .root) (source : String) (shared : σ) :
    Paired (List.Forall₂ (Resembles upToStyling))
        ((t.inMode .inline).complete.exec ((t.inMode .inline).start a source shared)).1
        ((t.inMode .cssClass).complete.exec ((t.inMode .cssClass).start a source shared)).1 ∧
      Paired (Resembles (classed (Everywhere SpelledTag a)))
        ((t.inMode .inline).treeAfter [.normalize, .structuring] a source shared)
        ((t.inMode .cssClass).treeAfter [.normalize, .structuring] a source shared) := by
  have plugins : ∀ mode, (t.inMode mode).plugins = builtin := fun mode => unchanged
  refine ⟨?_, ?_⟩
  · have twins : a.Twins Eq a := .of_everywhere (everywhere_of_each (fun _ => rfl) a)
    have alike : Resembles upToStyling ((t.inMode .inline).converted a) ((t.inMode .cssClass).converted a) :=
      converted_resembles along_styling rfl ⟨rfl, rfl, rfl, rfl, rfl⟩ (fun h k => congrArg flagBlank) twins
    refine complete_resembles (plugins .inline) (plugins .cssClass) top top Iff.rfl ?_ source source
      shared shared
    exact fun first second => grown_resembles first second (served_upToStyling _ _) alike
  · by_cases inside : Within maxDepth a
    · have twins : a.Twins (SpelledIf (Everywhere SpelledTag a)) a := by
        refine .of_everywhere ?_
        by_cases spelled : Everywhere SpelledTag a
        · exact spelled.imp fun c name => ⟨rfl, fun _ => name⟩
        · exact everywhere_of_each (fun _ => ⟨rfl, fun all => absurd all spelled⟩) a
      have alike : Resembles (classed (Everywhere SpelledTag a)) ((t.inMode .inline).converted a)
          ((t.inMode .cssClass).converted a) := by
        refine converted_resembles (along_classed _) ?_ ?_ (fun h k => SpelledIf.flagged) twins
        · exact ⟨rfl, rfl, rfl, fun some => absurd rfl some, nofun, fun _ some => absurd rfl some⟩
        · exact ⟨⟨rfl, rfl, rfl, rfl, rfl⟩, .inl rfl, fun _ some => absurd rfl some⟩
      rw [treeAfter_of_within (plugins .inline) inside, treeAfter_of_within (plugins .cssClass) inside]
      exact shaped_resembles alike
    · rw [treeAfter_too_deep (plugins .inline) inside, treeAfter_too_deep (plugins .cssClass) inside]
      exact .error _ _

def tagged (name : String) : Ast :=
  .node .root [.node (.tag name []) [.node (.text "x") []]]

theorem tagged_within (name : String) : Within maxDepth (tagged name) := by
  have shallow : Within 2 (tagged name) := by
    simp [tagged, Within, Branching.children, Ast.children]
  exact shallow.mono (by decide)

theorem paragraph_classed :
    usual.plugins = builtin ∧ (tagged "p").head.kind = .root ∧ Everywhere SpelledTag (tagged "p") ∧
      ∃ n m, (usual.inMode .inline).treeAfter [.normalize, .structuring] (tagged "p") "" () = .ok n ∧
        (usual.inMode .cssClass).treeAfter [.normalize, .structuring] (tagged "p") "" () = .ok m ∧
        Resembles (classed (Everywhere SpelledTag (tagged "p"))) n m := by
  have spelled : Everywhere SpelledTag (tagged "p") := by
    have paragraph : Tag.Spelled "p" := by decide
    refine everywhere_node.mpr ⟨nofun, fun c member => ?_⟩
    rw [List.mem_singleton.mp member]
    refine everywhere_node.mpr ⟨fun _ => paragraph, fun d inner => ?_⟩
    rw [List.mem_singleton.mp inner]
    exact .of_childless rfl nofun
  obtain ⟨n, inline⟩ : ∃ n, shaped ((usual.inMode .inline).converted (tagged "p")) = .ok n := ⟨_, rfl⟩
  have first : (usual.inMode .inline).treeAfter [.normalize, .structuring] (tagged "p") "" () = .ok n :=
    (treeAfter_of_within usual_plugins (tagged_within "p")).trans inline
  have both := (modes_agree usual usual_plugins (show (tagged "p").head.kind = .root from rfl) "" ()).2
  rw [first] at both
  cases second : (usual.inMode .cssClass).treeAfter [.normalize, .structuring] (tagged "p") "" () with
  | error f =>
    rw [second] at both
    cases both
  | ok m =>
    rw [second] at both
    cases both with
    | ok alike => exact ⟨usual_plugins, rfl, spelled, n, m, first, rfl, alike⟩

theorem blankedTag_unclassed :
    usual.plugins = builtin ∧ (tagged "div\u00a0").head.kind = .root ∧
      String.ofList (Text.lower "div\u00a0".toList) = "div\u00a0" ∧
      ∃ h k inside others,
        (usual.inMode .inline).treeAfter [.normalize, .structuring] (tagged "div\u00a0") "" () =
            .ok (Node.root.withChildren [.element h inside]) ∧
          (usual.inMode .cssClass).treeAfter [.normalize, .structuring] (tagged "div\u00a0") "" () =
            .ok (Node.root.withChildren [.element k others]) ∧
          h.style ≠ [] ∧ k.className = .null := by
  refine ⟨usual_plugins, rfl, by decide, _, _, _, _,
    (treeAfter_of_within (t := usual.inMode .inline) usual_plugins (tagged_within _)).trans rfl,
    (treeAfter_of_within (t := usual.inMode .cssClass) usual_plugins (tagged_within _)).trans rfl, ?_, rfl⟩
  exact List.cons_ne_nil _ _

end Transformer
end SemanticMarkup
