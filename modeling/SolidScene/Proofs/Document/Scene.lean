import SolidScene.Document.Scene
import SolidScene.Proofs.Decimal.Layout
import SolidScene.Proofs.Json.RoundTrip

/-!
# Scene files read back

The text of a scene file is read as the same scene file, its doubles aside: each of them is what the
reader makes of the number that is written for it (`read?_text`).  If that is nothing for one of
them, the text is no scene file.
-/

namespace SolidScene

open Json (IsPlain)

/-! ### What becomes of the doubles -/

/-- The double that is read where a double is written. -/
def Json.reread (x : Float) : Option Float := (ofFloat x).toFloat?

/-- A point with each coordinate read back. -/
def Vec3.reread (v : Vec3) : Option Vec3 := do
  return ⟨← Json.reread v.x, ← Json.reread v.y, ← Json.reread v.z⟩

/-- A shape with its place and its scale read back. -/
def Shape.reread (s : Shape) : Option Shape := do
  let position ← s.position.reread
  let scale ← Json.reread s.scale
  return ⟨⟨s.kind, scale⟩, position, s.color⟩

/-- Parameters with the thickness of the wall read back. -/
def Parameters.reread (p : Parameters) : Option Parameters := do
  return { p with wallThickness := ← Json.reread p.wallThickness }

namespace SceneFile

/-- A scene file with each double read back. -/
def reread (file : SceneFile) : Option SceneFile := do
  return ⟨← file.parameters.reread, ← file.shapes.mapM Shape.reread⟩

/-! ### What is encoded is decoded -/

@[simp] theorem oneOf_ofString {α : Type} (ofName? : String → Option α) (s : String) :
    Json.oneOf ofName? (.ofString s) = ofName? s := rfl

@[simp] theorem decodeColor_ofString (s : String) : decodeColor (.ofString s) = some (some s) := rfl

@[simp] theorem toWord?_ofNat (n : UInt32) : (Json.ofNat n.toNat).toWord? = some n := by
  have hn : n.toNat < UInt32.size := n.toNat_lt
  simp [Json.ofNat, Json.toWord?, hn]

theorem decodeVec3_encodeVec3 (v : Vec3) : decodeVec3 (encodeVec3 v) = v.reread := by
  simp [decodeVec3, encodeVec3, Json.ofFields, Json.fieldsOf?, Json.memberOf?, Json.required,
    Vec3.reread, Json.reread]

theorem decodeParameters_encodeParameters (p : Parameters) :
    decodeParameters (encodeParameters p) = p.reread := by
  simp [decodeParameters, encodeParameters, Json.ofFields, Json.fieldsOf?, Json.memberOf?,
    Json.withDefault, Parameters.reread, Json.reread]

theorem decodeShape_encodeShape (s : Shape) : decodeShape (encodeShape s) = s.reread := by
  obtain ⟨⟨kind, scale⟩, position, color⟩ := s
  cases color <;>
    simp [decodeShape, encodeShape, Json.ofFields, Json.fieldsOf?, Json.memberOf?, Json.required,
      Json.withDefault, decodeVec3_encodeVec3, Shape.reread, Json.reread]

theorem decode_encode (file : SceneFile) : decode file.encode = file.reread := by
  simp [decode, encode, Json.ofFields, Json.fieldsOf?, Json.memberOf?, Json.withDefault,
    decodeParameters_encodeParameters, Json.listOf, List.mapM_map, decodeShape_encodeShape,
    Function.comp_def, reread]

/-! ### What is encoded can be written -/

theorem isPlain_ofFloat (x : Float) : IsPlain (.ofFloat x) := by
  rw [Json.ofFloat]
  split
  · next n hn =>
    obtain ⟨d, -, rfl⟩ := Option.map_eq_some_iff.1 hn
    exact .number _ (NumberFormat.isPlain_writeMagnitude _ d)
  · exact .null

theorem isPlain_ofNat (n : ℕ) : IsPlain (.ofNat n) := by
  refine .number false ⟨fun _ => isDigit_of_mem_digitsOfNat, digitsOfNat_ne_nil n, fun hzero => ?_,
    by simp⟩
  rcases Nat.eq_zero_or_pos n with rfl | hpos
  · rfl
  · exact absurd hzero (head?_digitsOfNat_ne hpos)

theorem isPlain_ofFields {fields : List (String × Json)} (h : ∀ f ∈ fields, IsPlain f.2) :
    IsPlain (.ofFields fields) := by
  refine .object ?_ ?_ <;> rw [List.forall_mem_map]
  · exact fun _ _ => rfl
  · exact h

theorem isPlain_encodeVec3 (v : Vec3) : IsPlain (encodeVec3 v) :=
  isPlain_ofFields (by simp [isPlain_ofFloat])

theorem isPlain_encodeParameters (p : Parameters) : IsPlain (encodeParameters p) :=
  isPlain_ofFields (by simp [isPlain_ofFloat, isPlain_ofNat, Json.ofString, IsPlain.string])

theorem isPlain_encodeShape (s : Shape) : IsPlain (encodeShape s) := by
  refine isPlain_ofFields ?_
  cases s.color <;> simp [isPlain_ofFloat, isPlain_encodeVec3, Json.ofString, IsPlain.string]

theorem isPlain_encode (file : SceneFile) : IsPlain file.encode := by
  have hshapes : IsPlain (.array (file.shapes.map encodeShape)) := by
    refine .array ?_
    rw [List.forall_mem_map]
    exact fun s _ => isPlain_encodeShape s
  exact isPlain_ofFields (by simp [isPlain_encodeParameters, hshapes])

/-- **The text of a scene file** is read as the scene file with each double read back. -/
theorem read?_text (file : SceneFile) : read? file.text = file.reread := by
  rw [read?, text, Json.read?_text file.isPlain_encode]
  exact file.decode_encode

end SceneFile

end SolidScene
