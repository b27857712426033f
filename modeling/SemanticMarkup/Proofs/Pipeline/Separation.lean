import SemanticMarkup.Proofs.Replacement.Soundness

namespace SemanticMarkup
open Walk Passes Dispatch

namespace Passes

theorem readable_dressed (handlers : List CapabilityHandler) {head : ElementHead}
    (readable : head.Readable) : (dressed handlers head).Readable := by
  induction handlers generalizing head with
  | nil => exact readable
  | cons h rest ih => exact ih (readable_onHead h readable)

theorem readable_editAll (handlers : List CapabilityHandler) {n : Node} (inside : Within maxDepth n)
    (all : Everywhere (OfHead ElementHead.Readable) n) :
    Everywhere (OfHead ElementHead.Readable) (editAll (onElements handlers) n).1 := by
  have same : onElements handlers = Node.mapHead (dressed handlers) :=
    funext (onElements_eq_dressed handlers)
  have done := ((shallow_onElements handlers).done inside (Nat.lt_succ_self maxDepth)).1
  rw [editAll, same] at *
  exact everywhere_mapHead (fun head here => readable_dressed handlers here) all done

end Passes

namespace Transformer
variable {ε σ : Type}

theorem result_readable (t : Transformer ε σ) {a : Ast}
    (texts : Everywhere (fun c : Ast => c.head.attributes.Texts) a) (source : String) (shared : σ)
    {nodes : List Node}
    (fine : (({ t with plugins := builtin } : Transformer ε σ).complete.exec
      (t.start a source shared)).1 = .ok nodes) :
    ∀ n ∈ nodes, Everywhere (OfHead ElementHead.Readable) n := by
  have made := result_headOf (K := fun h => h.attributes.Texts) (t := { t with plugins := builtin })
    (fun _ _ => rfl) (offers_builtin (t.start a source shared).toSetting)
    (fun h known => by rwa [AstHead.attributes_flagBlank]) texts fine
  refine fun n member => (made n member).imp fun m here head given => ?_
  obtain ⟨old, of, rfl⟩ := here head given
  exact readable_dressed _ (readable_head of)

-- It is the same whether the capability plugins share a walk or some of them have passes of their
-- own: the phase leaves the tree of the three passes one after the other, and a transform comes to
-- the same result. What handlers can read, of a tree or of markup with texts for attributes, they can
-- read of what comes out.
theorem separated_alike (separate : String → Bool) :
    (∀ (extras : ε → Handler (HandlerName ε) σ) (ctx : Context (HandlerName ε) σ),
      Within maxDepth ctx.root → Everywhere Node.Imaged ctx.root →
        Everywhere (OfHead ElementHead.Readable) ctx.root →
          ∃ walked passed,
            (Dispatch.phase (HandlerName.perform extras)
              (capabilityPlugins.map (Plugin.separated separate)) .empty).exec ctx = (.ok (), walked) ∧
            (do applyStyle; applyToElements .layout; applyToElements .media :
              Action (HandlerName ε) σ Unit).exec ctx = (.ok (), passed) ∧
            walked.root = passed.root ∧ Everywhere (OfHead ElementHead.Readable) passed.root) ∧
    ∀ (t : Transformer ε σ) (a : Ast) (source : String) (shared : σ),
      (({ t with plugins := builtin.map (Plugin.separated separate) } :
          Transformer ε σ).complete.exec (t.start a source shared)).1 =
        (({ t with plugins := builtin } : Transformer ε σ).complete.exec (t.start a source shared)).1 ∧
      (Everywhere (fun c : Ast => c.head.attributes.Texts) a →
        ∀ nodes, (({ t with plugins := builtin } : Transformer ε σ).complete.exec
            (t.start a source shared)).1 = .ok nodes →
          ∀ n ∈ nodes, Everywhere (OfHead ElementHead.Readable) n) := by
  constructor
  · intro extras ctx inside imaged readable
    have able : Dressable ctx.metadata ctx := ⟨rfl, inside, imaged⟩
    obtain ⟨walked, phased, shared⟩ := exec_phase extras (offers_separated separate ctx.toSetting)
      Registry.holds_empty .nil able
    obtain ⟨passed, each, alone⟩ := exec_passes able
    refine ⟨walked, passed, phased, each, shared.root.trans alone.root.symm, ?_⟩
    rw [alone.root]
    exact readable_editAll _ inside readable
  · intro t a source shared
    exact ⟨complete_separated separate t a source shared,
      fun texts nodes fine => result_readable t texts source shared fine⟩

def picture : Node :=
  .element ⟨.text "image", .record [], .null, .absent,
    .record [("source_tag", .text "img"),
      ("source_attrs", .record [("src", .text "a.png"), ("style", .text "width: 4px")])]⟩ []

def gallery : Node :=
  .element ⟨.text "view", .record [], .null, .absent,
    .record [("source_tag", .text "div"), ("source_attrs", .record [("class", .text "wide")])]⟩ [picture]

def galleryContext : Context (HandlerName Empty) Unit :=
  ⟨⟨.node .root [], [("remove_all_class", .flag false)], .null, none, none, ()⟩, gallery⟩

theorem gallery_alike :
    Within maxDepth gallery ∧ Everywhere Node.Imaged gallery ∧
      Everywhere (OfHead ElementHead.Readable) gallery ∧ picture.hasSourceTag Tag.image = true ∧
      ∃ walked passed,
        (Dispatch.phase usual.perform
          (capabilityPlugins.map (Plugin.separated (· == "layout-capability"))) .empty).exec
            galleryContext = (.ok (), walked) ∧
        (do applyStyle; applyToElements .layout; applyToElements .media :
          Action (HandlerName Empty) Unit Unit).exec galleryContext = (.ok (), passed) ∧
        walked.root = passed.root ∧ Everywhere (OfHead ElementHead.Readable) passed.root := by
  have shallow : Within 1 gallery := by
    simp [gallery, picture, Within, Branching.children, Node.children]
  have inside : Within maxDepth gallery := shallow.mono (by decide)
  have images : Everywhere Node.Imaged gallery := by
    refine everywhere_element.mpr ⟨fun image => absurd image (by decide), fun c member => ?_⟩
    rw [List.mem_singleton] at member
    subst member
    exact .of_childless rfl fun _ => by decide
  have readable : Everywhere (OfHead ElementHead.Readable) gallery := by
    refine everywhere_ofHead_element.mpr ⟨⟨⟨[], rfl, .inl rfl⟩, .inr ⟨_, rfl, .inr ⟨_, rfl, ?_⟩⟩⟩, ?_⟩
    · simp [Table.Texts]
    · refine List.forall_mem_singleton.mpr (.of_childless rfl ?_)
      rintro _ ⟨⟩
      exact ⟨⟨[], rfl, .inl rfl⟩, .inr ⟨_, rfl, .inr ⟨_, rfl, by simp [Table.Texts]⟩⟩⟩
  exact ⟨inside, images, readable, by decide,
    (separated_alike (· == "layout-capability")).1 usual.extras galleryContext inside images readable⟩

end Transformer
end SemanticMarkup
