import SemanticMarkup.Proofs.Props.Images

namespace SemanticMarkup
open Walk Passes

def Value.RecordIf (P : Table Value → Prop) (v : Value) : Prop :=
  v = .null ∨ ∃ fields, v = .record fields ∧ P fields

-- What handlers read of an element is of the shape that they expect: its markup attributes are texts,
-- and its props and its style are records.
structure ElementHead.Readable (head : ElementHead) : Prop where
  style : ∃ props, head.props = .record props ∧ (Table.getD props "style").RecordIf fun _ => True
  attributes : head.annotations.RecordIf fun notes =>
    (Table.getD notes "source_attrs").RecordIf Table.Texts

structure Node.Sound (n : Node) : Prop where
  wellFormed : n.WellFormed
  readable : OfHead ElementHead.Readable n

theorem Node.Sound.text_of_other {n : Node} (sound : n.Sound) (other : n.isElement = false) :
    ∃ leaf, n = .text leaf := by
  cases n with
  | text leaf => exact ⟨leaf, rfl⟩
  | element _ _ => cases other
  | _ => exact sound.wellFormed.elim

theorem ElementHead.Readable.changed {head : ElementHead} (readable : head.Readable)
    {change : Table Value → Table Value}
    (keeps : ∀ props, ((Table.getD props "style").RecordIf fun _ => True) →
      (Table.getD (change props) "style").RecordIf fun _ => True) :
    Readable { head with props := head.props.mapRecord change } where
  style := by
    obtain ⟨props, given, read⟩ := readable.style
    exact ⟨change props, by rw [given]; rfl, keeps props read⟩
  attributes := readable.attributes

namespace Passes

theorem style_addStyle (attributes : Table Value) {props : Table Value}
    (read : (Table.getD props "style").RecordIf fun _ => True) :
    (Table.getD (addStyle attributes props) "style").RecordIf fun _ => True := by
  unfold addStyle
  dsimp only
  split
  · exact read
  · rw [Table.getD_set, if_pos rfl]
    exact .inr ⟨_, rfl, trivial⟩

theorem style_addClasses (attributes props : Table Value) :
    Table.getD (addClasses attributes props) "style" = Table.getD props "style" := by
  unfold addClasses
  dsimp only
  split
  · rfl
  · rw [Table.getD_set, if_neg (by decide)]

theorem readable_onHead (h : CapabilityHandler) {head : ElementHead} (readable : head.Readable) :
    (h.onHead head).Readable := by
  cases h with
  | style removeStyle removeClass =>
    refine readable.changed fun props read => ?_
    have styled : (Table.getD (if removeStyle then props else addStyle head.attributes props)
        "style").RecordIf fun _ => True := by
      split
      · exact read
      · exact style_addStyle head.attributes read
    dsimp only
    split
    · exact styled
    · rwa [style_addClasses]
  | layout => exact ⟨readable.style, readable.attributes⟩
  | media =>
    unfold CapabilityHandler.onHead
    dsimp only
    split
    · refine readable.changed fun props _ => ?_
      unfold imageProps
      dsimp only
      rw [Table.getD_set, if_pos rfl]
      exact .inr ⟨_, rfl, trivial⟩
    · exact readable

theorem wellFormed_onHead (h : CapabilityHandler) {head : ElementHead} {children : List Node}
    (fine : (Node.element head children).WellFormed) : (Node.element (h.onHead head) children).WellFormed := by
  obtain ⟨tag, ⟨table, props⟩, void⟩ := fine
  have changed : ∀ change,
      (Node.element { head with props := head.props.mapRecord change } children).WellFormed :=
    fun change => ⟨tag, ⟨change table, by rw [props]; rfl⟩, void⟩
  cases h with
  | style removeStyle removeClass => exact changed _
  | layout =>
    have same := head.capabilities.saysVoid_orElse (show defaultCapabilities.isVoid = false from rfl)
    exact ⟨tag, ⟨table, props⟩, fun closed => void (by rwa [← same])⟩
  | media =>
    unfold CapabilityHandler.onHead
    dsimp only
    split
    · exact changed _
    · exact ⟨tag, ⟨table, props⟩, void⟩

theorem sound_edit (h : CapabilityHandler) {n : Node} (all : Everywhere Node.Sound n) :
    Everywhere Node.Sound (h.edit n) := by
  rw [edit_eq_onHead]
  cases n with
  | element head children =>
    refine everywhere_element.mpr ⟨⟨wellFormed_onHead h all.here.wellFormed, ?_⟩, all.inside⟩
    rintro _ ⟨⟩
    exact readable_onHead h (all.here.readable head rfl)
  | text leaf => exact all
  | _ => exact all.here.wellFormed.elim

theorem readable_head {mode : StyleMode} {made : ElementHead}
    (of : HeadOf (fun h => h.attributes.Texts) mode made) : made.Readable := by
  obtain ⟨h, m, target, texts, _, rfl⟩ := of
  refine ⟨⟨_, rfl, ?_⟩, .inr ⟨_, rfl, .inr ⟨h.attributes, rfl, texts⟩⟩⟩
  cases mode with
  | inline => exact .inr ⟨_, rfl, trivial⟩
  | cssClass =>
    unfold props
    dsimp only
    split
    · exact .inl rfl
    · exact .inl rfl

theorem sound_converted {mode : StyleMode} {a : Ast} {nodes : List Node}
    (texts : Everywhere (fun c : Ast => c.head.attributes.Texts) a)
    (converted : nodesOf mode a = .ok nodes) : Everywhere Node.Sound (Node.root.withChildren nodes) := by
  obtain ⟨rfl, _⟩ := convert_ok mode a .nothing 0 converted
  have proper := root_proper mode a
  refine everywhere_element.mpr ⟨⟨wellFormed_of_proper proper.here, ?_⟩, fun n member => ?_⟩
  · rintro _ ⟨⟩
    exact ⟨⟨[], rfl, .inl rfl⟩, .inr ⟨[], rfl, .inl rfl⟩⟩
  · have heads := becomes_headOf (K := fun h => h.attributes.Texts) mode texts .nothing n member
    refine ((proper.inside n member).and heads).imp fun m both => ⟨wellFormed_of_proper both.1, ?_⟩
    exact fun head given => readable_head (both.2 head given)

end Passes
end SemanticMarkup
