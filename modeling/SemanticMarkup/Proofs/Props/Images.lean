import SemanticMarkup.Proofs.Props.Heads
import SemanticMarkup.Proofs.Props.Styling

namespace SemanticMarkup
open Walk Passes Node Transformer

def Table.Texts (t : Table Value) : Prop := ∀ entry ∈ t, ∃ text, entry.2 = .text text

namespace Value

theorem orElse_of_true {v : Value} (yes : v.isTrue = true) (other : Value) : v.orElse other = v :=
  if_pos yes

theorem orElse_of_false {v : Value} (no : v.isTrue = false) (other : Value) : v.orElse other = other :=
  if_neg (by simp [no])

theorem isTrue_text {text : String} : (Value.text text).isTrue = true ↔ text ≠ "" := by
  simp [isTrue]

end Value

namespace Table

theorem texts_mapValues (t : Table String) : (mapValues Value.text t).Texts := by
  intro entry member
  obtain ⟨old, _, rfl⟩ := List.mem_map.mp member
  exact ⟨old.2, rfl⟩

theorem get?_of_getD {t : Table Value} {key text : String} (given : getD t key = .text text) :
    get? t key = some (.text text) := by
  unfold getD at given
  cases found : get? t key with
  | none =>
    rw [found] at given
    cases given
  | some value =>
    rw [found] at given
    exact congrArg some given

theorem getD_set (t : Table Value) (key : String) (value : Value) (other : String) :
    getD (set t key value) other = if other = key then value else getD t other := by
  rw [getD, get?_set, getD]
  split <;> rfl

theorem Texts.getD {t : Table Value} (texts : t.Texts) (key : String) :
    ((Table.getD t key).isTrue = true ↔ (text? t key).getD "" ≠ "") ∧
      ((Table.getD t key).isTrue = true → Table.getD t key = .text ((text? t key).getD "")) := by
  unfold Table.getD text?
  cases found : get? t key with
  | none => simp [Value.isTrue]
  | some value =>
    obtain ⟨text, same⟩ := texts _ (mem_of_get? found)
    dsimp only at same
    subst same
    simp [Value.isTrue, Value.text?]

end Table

namespace Passes

-- A side of an image: what its own attribute says, or what its style attribute declares when that
-- says nothing, or the fallback.
def imageSide (attributes : Table Value) (side fallback : String) : String :=
  let own := (Table.text? attributes side).getD ""
  if own = "" then (Table.get? (declarationsOf attributes) side).getD fallback else own

theorem imageSide_filled (attributes : Table Value) (side : String) {fallback : String}
    (filled : fallback ≠ "") : imageSide attributes side fallback ≠ "" := by
  unfold imageSide
  dsimp only
  split
  · cases read : Table.get? (declarationsOf attributes) side with
    | none => exact filled
    | some value => exact Style.parse_filled _ _ (Table.mem_of_get? read)
  · rename_i own
    exact own

section Sides
variable {attributes style : Table Value} {side other : String} {value : Value}

theorem settle_same (there : value.isTrue = true → Table.get? style side = some value) :
    settle style side value = style := by
  unfold settle
  split
  · rename_i true
    exact Table.set_same (there true)
  · rfl

theorem fill_same (there : (Table.getD style side).isTrue = true) : fill style side value = style := by
  rw [fill, if_pos there]

theorem getD_settle (style : Table Value) (side : String) (value : Value) (key : String) :
    Table.getD (settle style side value) key =
      if key = side then value.orElse (Table.getD style key) else Table.getD style key := by
  unfold settle Value.orElse
  split
  · rw [Table.getD_set]
  · simp

theorem getD_fill (style : Table Value) (side : String) (value : Value) (key : String) :
    Table.getD (fill style side value) key =
      if key = side then (Table.getD style key).orElse (value.orElse (Table.getD style key))
      else Table.getD style key := by
  unfold fill
  by_cases here : key = side
  · subst here
    rw [if_pos rfl]
    conv_rhs => rw [Value.orElse]
    split
    · rfl
    · rw [getD_settle, if_pos rfl]
  · rw [if_neg here]
    split
    · rfl
    · rw [getD_settle, if_neg here]

def sideOf (own there declared : Value) (fallback : String) : Value :=
  let settled := own.orElse there
  (settled.orElse (declared.orElse settled)).orElse (.text fallback)

theorem getD_imageStyle (attributes style : Table Value) :
    Table.getD (imageStyle attributes style) "width" =
        sideOf (Table.getD attributes "width") (Table.getD style "width")
          (Table.getD (attributeStyle attributes) "width") "100%" ∧
      Table.getD (imageStyle attributes style) "height" =
        sideOf (Table.getD attributes "height") (Table.getD style "height")
          (Table.getD (attributeStyle attributes) "height") "auto" := by
  have full : ∀ v : Value, (Value.text "100%").orElse v = .text "100%" := fun _ => rfl
  have auto : ∀ v : Value, (Value.text "auto").orElse v = .text "auto" := fun _ => rfl
  unfold imageStyle sideOf
  simp [getD_fill, getD_settle, full, auto]

theorem sideOf_eq (texts : attributes.Texts) (side fallback : String) {there : Value}
    (known : there = .null ∨ there = Table.getD (attributeStyle attributes) side) :
    sideOf (Table.getD attributes side) there (Table.getD (attributeStyle attributes) side) fallback =
      .text (imageSide attributes side fallback) := by
  obtain ⟨true_iff, own⟩ := texts.getD side
  have declared : Table.getD (attributeStyle attributes) side =
      ((Table.get? (declarationsOf attributes) side).map Value.text).getD .null := by
    rw [Table.getD, get?_attributeStyle]
  unfold imageSide sideOf
  dsimp only
  by_cases said : (Table.text? attributes side).getD "" = ""
  · have silent : (Table.getD attributes side).isTrue = false := by
      rw [Bool.eq_false_iff, Ne, true_iff]
      exact fun filled => filled said
    rw [if_pos said, Value.orElse_of_false silent]
    rw [declared] at known ⊢
    cases read : Table.get? (declarationsOf attributes) side with
    | none =>
      rw [read] at known
      rcases known with rfl | rfl <;> rfl
    | some text =>
      have filled := Value.isTrue_text.mpr (Style.parse_filled _ _ (Table.mem_of_get? read))
      rw [read] at known
      have settled : there.orElse ((Value.text text).orElse there) = .text text := by
        rw [Value.orElse_of_true filled]
        rcases known with rfl | rfl
        · rfl
        · exact Value.orElse_of_true filled _
      show (there.orElse ((Value.text text).orElse there)).orElse _ = _
      rw [settled, Value.orElse_of_true filled]
      rfl
  · have spoken : (Table.getD attributes side).isTrue = true := by rwa [true_iff]
    rw [if_neg said, Value.orElse_of_true spoken, Value.orElse_of_true spoken,
      Value.orElse_of_true spoken, own spoken]

structure Sized (attributes style : Table Value) : Prop where
  width : Table.get? style "width" = some (.text (imageSide attributes "width" "100%"))
  height : Table.get? style "height" = some (.text (imageSide attributes "height" "auto"))

theorem imageStyle_sized (texts : attributes.Texts)
    (known : style = [] ∨ style = attributeStyle attributes) :
    Sized attributes (imageStyle attributes style) := by
  have there : ∀ side, Table.getD style side = .null ∨
      Table.getD style side = Table.getD (attributeStyle attributes) side := by
    intro side
    rcases known with rfl | rfl
    · exact .inl rfl
    · exact .inr rfl
  obtain ⟨width, height⟩ := getD_imageStyle attributes style
  rw [sideOf_eq texts "width" "100%" (there "width")] at width
  rw [sideOf_eq texts "height" "auto" (there "height")] at height
  exact ⟨Table.get?_of_getD width, Table.get?_of_getD height⟩

theorem imageStyle_again (texts : attributes.Texts) (sized : Sized attributes style) :
    imageStyle attributes style = style := by
  have own : ∀ side fallback, fallback ≠ "" →
      Table.get? style side = some (.text (imageSide attributes side fallback)) →
      settle style side (Table.getD attributes side) = style ∧
        ∀ value, fill style side value = style := by
    intro side fallback filled there
    obtain ⟨true_iff, given⟩ := texts.getD side
    refine ⟨settle_same fun spoken => ?_, fun value => fill_same ?_⟩
    · have said := spoken
      rw [true_iff] at said
      rw [there, given spoken, imageSide, if_neg said]
    · rw [Table.getD, there]
      simpa [Value.isTrue] using imageSide_filled attributes side filled
  obtain ⟨wide, widened⟩ := own "width" "100%" (by decide) sized.width
  obtain ⟨high, heightened⟩ := own "height" "auto" (by decide) sized.height
  unfold imageStyle
  dsimp only
  rw [wide, high, widened, heightened, widened, heightened]

end Sides

section Heads
variable {attributes props : Table Value} {styled removeStyle removeClass : Bool}

theorem styleOf_imageProps (attributes props : Table Value) :
    styleOf (imageProps attributes props) = imageStyle attributes (styleOf props) := by
  have kept := styleOf_settle props (show "src" ≠ "style" by decide) (Table.getD attributes "src")
  unfold imageProps
  dsimp only
  rw [kept, styleOf, Table.getD_set, if_pos rfl]
  rfl

theorem get?_imageProps (attributes props : Table Value) :
    Table.get? (imageProps attributes props) "style" =
      some (.record (styleOf (imageProps attributes props))) := by
  have kept := styleOf_settle props (show "src" ≠ "style" by decide) (Table.getD attributes "src")
  rw [styleOf_imageProps, ← kept, imageProps, Table.get?_set, if_pos rfl]

theorem imageProps_again (texts : attributes.Texts)
    (sized : Sized attributes (styleOf (imageProps attributes props))) :
    imageProps attributes (imageProps attributes props) = imageProps attributes props := by
  have source : (Table.getD attributes "src").isTrue = true →
      Table.get? (imageProps attributes props) "src" = some (Table.getD attributes "src") := by
    intro given
    unfold imageProps settle
    dsimp only
    rw [if_pos given, Table.get?_set, if_neg (by decide), Table.get?_set, if_pos rfl]
  conv_lhs => rw [imageProps]
  rw [settle_same source, imageStyle_again texts sized, Table.set_same (get?_imageProps attributes props)]

def dressersWith (styled removeStyle removeClass : Bool) : List CapabilityHandler :=
  (if styled then [.style removeStyle removeClass] else []) ++ [.layout, .media]

theorem props_media (head : ElementHead) (given : head.props = .record props)
    (image : head.origin.isText Tag.image = true) :
    (CapabilityHandler.media.onHead head).props = .record (imageProps head.attributes props) := by
  rw [CapabilityHandler.onHead, if_pos image, given]
  rfl

theorem unstyled_image {m : TagMapping} (mapped : Tag.mapping? Tag.image = some m) (mode : StyleMode) :
    styleOf (Passes.props mode Tag.image m) = [] := by
  cases mode with
  | inline =>
    have none : (Tag.mapping? Tag.image).all (fun m => m.defaultStyle.isEmpty) = true := by decide
    rw [mapped] at none
    exact List.isEmpty_iff.mp none
  | cssClass => rfl

theorem dressed_image {h : AstHead} {m : TagMapping} (image : h.tagName = Tag.image)
    (mapped : Tag.mapping? h.tagName = some m) (mode : StyleMode) (target : String) :
    ∃ props, (dressed (dressersWith styled removeStyle removeClass) (head mode h m target)).props =
        .record (imageProps h.attributes props) ∧
      (styleOf props = [] ∨ styleOf props = attributeStyle h.attributes) ∧
      (styled = false ∨ removeStyle = true → styleOf props = []) := by
  have plain : styleOf (Passes.props mode h.tagName m) = [] := by
    rw [image] at mapped ⊢
    exact unstyled_image mapped mode
  have origin : ∀ front, (dressed front (head mode h m target)).origin.isText Tag.image = true := by
    intro front
    rw [origin_dressed, image]
    rfl
  cases styled with
  | false =>
    have media := props_media (dressed [.layout] (head mode h m target)) rfl (origin _)
    rw [attributes_dressed] at media
    exact ⟨_, media, .inl plain, fun _ => plain⟩
  | true =>
    have media := props_media
      (dressed [.style removeStyle removeClass, .layout] (head mode h m target)) rfl (origin _)
    rw [attributes_dressed, attributes_head] at media
    refine ⟨_, media, ?_⟩
    have styles : ∀ props, styleOf (if removeClass then props else addClasses h.attributes props) =
        styleOf props := by
      intro props
      split
      · rfl
      · exact styleOf_addClasses h.attributes props
    dsimp only
    rw [styles]
    cases removeStyle with
    | true => exact ⟨.inl plain, fun _ => plain⟩
    | false =>
      rw [if_neg (by decide), styleOf_addStyle, plain, Table.update_empty (attributeStyle_once _)]
      exact ⟨.inr rfl, by simp⟩

end Heads

theorem head_of_source {n : Node} {tag : String} (source : n.hasSourceTag tag = true) :
    ∃ head, n.head? = some head ∧ head.origin.isText tag = true := by
  cases n with
  | element head _ => exact ⟨head, rfl, source⟩
  | barren head _ => exact ⟨head, rfl, source⟩
  | text leaf => cases source
  | alien kind => simp [hasSourceTag, sourceTag, Node.annotations, rawAnnotations, Value.record?,
      Table.getD, Value.isText, Value.text?] at source

theorem sourceAttributes_of_head {n : Node} {head : ElementHead} (given : n.head? = some head) :
    n.sourceAttributes = head.attributes := by
  cases n with
  | element _ _ =>
    cases given
    rfl
  | barren _ _ =>
    cases given
    rfl
  | _ => cases given

theorem mapHead_same {f : ElementHead → ElementHead} {n : Node}
    (same : ∀ head, n.head? = some head → f head = head) : n.mapHead f = n := by
  cases n with
  | element head kids => rw [mapHead, same head rfl]
  | barren head given => rw [mapHead, same head rfl]
  | _ => rfl

-- An image whose style has the two sides, and nothing else if it is to be bare.
structure SizedImage (bare : Prop) (n : Node) : Prop where
  style : ∃ props style, n.head?.map ElementHead.props = some (.record props) ∧
    Table.get? props "style" = some (.record style) ∧ Sized n.sourceAttributes style ∧
      (bare → ∀ key ∈ Table.keys style, isSide key = true)
  wide : imageSide n.sourceAttributes "width" "100%" ≠ ""
  high : imageSide n.sourceAttributes "height" "auto" ≠ ""

section Made
variable {mode : StyleMode} {styled removeStyle removeClass : Bool} {made : ElementHead} {n : Node}

theorem made_image
    (of : MadeOf (fun h => h.attributes.Texts) mode (dressersWith styled removeStyle removeClass) made)
    (image : made.origin.isText Tag.image = true) :
    made.attributes.Texts ∧ ∃ props, made.props = .record (imageProps made.attributes props) ∧
      Sized made.attributes (styleOf (imageProps made.attributes props)) ∧
      (styled = false ∨ removeStyle = true → styleOf props = []) := by
  obtain ⟨old, ⟨h, m, target, texts, mapped, rfl⟩, rfl⟩ := of
  have name : h.tagName = Tag.image := by
    rw [origin_dressed] at image
    simpa [Value.isText, Value.text?] using image
  obtain ⟨props, same, known, none⟩ := dressed_image name mapped mode target
  rw [attributes_dressed]
  refine ⟨texts, props, same, ?_, none⟩
  rw [styleOf_imageProps]
  exact imageStyle_sized texts known

theorem sizedImage_of_made
    (here : OfHead
      (MadeOf (fun h => h.attributes.Texts) mode (dressersWith styled removeStyle removeClass)) n)
    (source : n.hasSourceTag Tag.image = true) :
    SizedImage (styled = false ∨ removeStyle = true) n := by
  obtain ⟨head, given, image⟩ := head_of_source source
  obtain ⟨texts, props, same, sized, none⟩ := made_image (here head given) image
  rw [← sourceAttributes_of_head given] at same sized
  refine ⟨⟨_, _, ?_, get?_imageProps _ props, sized, ?_⟩, imageSide_filled _ _ (by decide),
    imageSide_filled _ _ (by decide)⟩
  · rw [given]
    exact congrArg some same
  · intro bare key member
    have sides := imageStyle_sides n.sourceAttributes (styleOf props)
    rw [none bare, List.filter_nil, List.filter_eq_nil_iff] at sides
    obtain ⟨entry, among, rfl⟩ := List.mem_map.mp member
    rw [styleOf_imageProps, none bare] at among
    simpa using sides entry among

theorem mapHead_media
    (here : OfHead
      (MadeOf (fun h => h.attributes.Texts) mode (dressersWith styled removeStyle removeClass)) n) :
    n.mapHead CapabilityHandler.media.onHead = n := by
  refine mapHead_same fun made given => ?_
  rw [CapabilityHandler.onHead]
  split
  · rename_i image
    obtain ⟨texts, props, same, sized, _⟩ := made_image (here made given) image
    have again := imageProps_again texts sized
    show { made with props := made.props.mapRecord (imageProps made.attributes) } = made
    rw [same, Value.mapRecord, again, ← same]
  · rfl

end Made

def pluginsWith {ε σ : Type} (styled : Bool) (separate : String → Bool) :
    List (Plugin (HandlerName ε) σ) :=
  (builtin.filter fun p => styled || p.name != "style-capability").map (Plugin.separated separate)

section Plugins
variable {ε σ : Type} {metadata : Table Value}

theorem pluginsWith_elsewhere (styled : Bool) (separate : String → Bool) {phase : Phase}
    (other : phase ≠ .capability) :
    Resolve.inPhase (pluginsWith styled separate : List (Plugin (HandlerName ε) σ)) phase =
      Resolve.inPhase builtin phase := by
  unfold pluginsWith
  rw [separated_of_builtin separate (fun p member => (List.mem_filter.mp member).1) other]
  unfold Resolve.inPhase
  rw [List.filter_filter]
  refine List.filter_congr fun p member => ?_
  have named : ∀ p ∈ (builtin : List (Plugin (HandlerName ε) σ)), p.phase ≠ .capability →
      p.name ≠ "style-capability" := by
    simp [builtin, plain, batched]
  cases here : p.phase == phase with
  | false => rfl
  | true =>
    have apart : p.name ≠ "style-capability" :=
      named p member (by rwa [beq_iff_eq.mp here])
    simp [apart]

theorem offers_pluginsWith (styled : Bool) (separate : String → Bool)
    (s : Setting (HandlerName ε) σ) {removeStyle removeClass : Bool}
    (handler : styleHandler s = .style removeStyle removeClass) :
    List.Forall₂ (@Offers ε σ s.metadata) (Resolve.inPhase (pluginsWith styled separate) .capability)
      (dressersWith styled removeStyle removeClass) := by
  have offers := offers_separated separate s
  unfold dressers at offers
  rw [handler] at offers
  unfold pluginsWith
  rw [inPhase_separated]
  cases styled with
  | true => exact offers
  | false =>
    cases offers with
    | cons _ others => exact others

end Plugins

end Passes

namespace Transformer
variable {ε σ : Type}

-- Every image from an image tag has its two sides, each from the attribute, else from the style
-- attribute, else the fallback, whatever the options and whether the style plugin runs. The media
-- handler finds nothing more to do.
theorem images_sized (t : Transformer ε σ) (styled : Bool) (separate : String → Bool)
    (variant : t.plugins = pluginsWith styled separate) {a : Ast}
    (texts : Everywhere (fun c : Ast => c.head.attributes.Texts) a) (source : String) (shared : σ)
    {nodes : List Node} (fine : (t.complete.exec (t.start a source shared)).1 = .ok nodes) :
    ∀ n ∈ nodes,
      Everywhere (fun n => n.hasSourceTag Tag.image = true →
        SizedImage (styled = false ∨ t.options.removeAllStyle.isTrue = true) n) n ∧
      (∀ s : Setting (HandlerName ε) σ, Everywhere (fun n =>
        (CapabilityHandler.media.perform : Handler (HandlerName ε) σ).run.run (n, s) =
          (.ok none, n, s)) n) ∧
      (editAll CapabilityHandler.media.onElement n).1 = n := by
  have handler := (Stage.start t source shared a).styleHandler
  have made := result_headOf (K := fun h => h.attributes.Texts)
    (fun phase other => by rw [variant, pluginsWith_elsewhere styled separate other])
    (by rw [variant]; exact offers_pluginsWith styled separate (t.start a source shared).toSetting handler)
    (fun h known => by rwa [AstHead.attributes_flagBlank]) texts fine
  intro n member
  have all := made n member
  refine ⟨all.imp fun m => sizedImage_of_made, fun s => all.imp fun m here => ?_, ?_⟩
  · show (Except.ok none, CapabilityHandler.media.edit m, s) = _
    rw [edit_eq_onHead, mapHead_media here]
  · refine editWithin_still (all.imp fun m here => ?_)
    rw [onElement_eq_onHead, mapHead_media here]

def picturePage : Ast :=
  .node .root [.node (.tag "img" [("width", ""), ("height", "9"), ("style", "width: 4px; color: red")]) []]

def unstyled : Transformer Empty Unit where
  options := { usual.options with validate := .flag false }
  plugins := pluginsWith false fun _ => true
  extras := nofun

theorem picturePage_sized :
    unstyled.plugins = pluginsWith false (fun _ => true) ∧
      Everywhere (fun c : Ast => c.head.attributes.Texts) picturePage ∧
      ∃ nodes, (unstyled.complete.exec (unstyled.start picturePage "" ())).1 = .ok nodes ∧
        nodes.map (fun n => n.hasSourceTag Tag.image) = [true] ∧
        nodes.map (fun n => imageSide n.sourceAttributes "width" "100%") = ["4px"] ∧
        ∀ n ∈ nodes, Everywhere (fun n => n.hasSourceTag Tag.image = true →
          SizedImage (false = false ∨ unstyled.options.removeAllStyle.isTrue = true) n) n := by
  have texts : Everywhere (fun c : Ast => c.head.attributes.Texts) picturePage := by
    refine everywhere_node.mpr ⟨nofun, fun c member => ?_⟩
    rw [List.mem_singleton.mp member]
    exact .of_childless rfl (Table.texts_mapValues _)
  have told : (unstyled.complete.exec (unstyled.start picturePage "" ())).1.map (fun nodes =>
      (nodes.map fun n => n.hasSourceTag Tag.image,
        nodes.map fun n => imageSide n.sourceAttributes "width" "100%")) = .ok ([true], ["4px"]) := rfl
  obtain ⟨nodes, fine, same⟩ := ok_of_map told
  obtain ⟨image, side⟩ := Prod.mk.inj same
  exact ⟨rfl, texts, nodes, fine, image, side,
    fun n member => (images_sized unstyled false (fun _ => true) rfl texts "" () fine n member).1⟩

end Transformer
end SemanticMarkup
