import SemanticMarkup.Proofs.Likeness.Cascade
import SemanticMarkup.Proofs.Style.Declarations

namespace SemanticMarkup
open Passes

namespace Passes

def declarationsOf (attributes : Table Value) : Table String :=
  Style.parse ((Table.text? attributes "style").getD "")

def classesOf (attributes : Table Value) : List String :=
  (Text.words ((Table.text? attributes "class").getD "").toList).map String.ofList

theorem get?_attributeStyle (attributes : Table Value) (key : String) :
    Table.get? (attributeStyle attributes) key =
      (Table.get? (declarationsOf attributes) key).map Value.text := by
  unfold attributeStyle declarationsOf
  generalize Style.parse _ = read
  induction read with
  | nil => rfl
  | cons entry rest ih =>
    obtain ⟨k, v⟩ := entry
    rw [Table.mapValues] at ih ⊢
    rw [List.map_cons, Table.get?_cons, Table.get?_cons, ih]
    split <;> rfl

theorem attributeStyle_once (attributes : Table Value) :
    (Table.keys (attributeStyle attributes)).Nodup := by
  have same : Table.keys (attributeStyle attributes) = Table.keys (declarationsOf attributes) := by
    simp [attributeStyle, declarationsOf, Table.mapValues, Table.keys]
  rw [same]
  exact Style.parse_once _

theorem styleOf_set (props : Table Value) {key : String} (other : key ≠ "style") (value : Value) :
    styleOf (Table.set props key value) = styleOf props := by
  rw [styleOf, styleOf, Table.getD, Table.getD, Table.get?_set, if_neg (Ne.symm other)]

theorem styleOf_settle (props : Table Value) {key : String} (other : key ≠ "style") (value : Value) :
    styleOf (settle props key value) = styleOf props := by
  unfold settle
  split
  · exact styleOf_set props other value
  · rfl

theorem styleOf_addClasses (attributes props : Table Value) :
    styleOf (addClasses attributes props) = styleOf props := by
  unfold addClasses
  dsimp only
  split
  · rfl
  · exact styleOf_set props (by decide) _

theorem styleOf_addStyle (attributes props : Table Value) :
    styleOf (addStyle attributes props) = Table.update (styleOf props) (attributeStyle attributes) := by
  unfold addStyle
  dsimp only
  split
  · rename_i none
    rw [List.isEmpty_iff.mp none, Table.update_nil]
  · rw [styleOf, Table.getD, Table.get?_set, if_pos rfl]
    rfl

end Passes
end SemanticMarkup
