import SolidScene.Json.Printer
import SolidScene.Json.Reader
import SolidScene.Json.Record
import SolidScene.Parameters
import SolidScene.Shape

/-!
# Scene files

A scene file holds the parameters and the shapes of a scene as JSON.  A shape has to state its
kind and its scale; everything else has a default.  Names of kinds, units and styles are
written exactly.
-/

namespace SolidScene

/-- What a scene file holds. -/
structure SceneFile where
  parameters : Parameters
  shapes : List Shape
  deriving DecidableEq

namespace SceneFile

/-! ### Decoding -/

/-- A point, all three coordinates of which are stated. -/
def decodeVec3 (j : Json) : Option Vec3 := do
  match ← j.fieldsOf? ["x", "y", "z"] with
  | [x, y, z] =>
    return ⟨← Json.required Json.toFloat? x, ← Json.required Json.toFloat? y,
      ← Json.required Json.toFloat? z⟩
  | _ => none

/-- A colour, or null for none. -/
def decodeColor : Json → Option (Option String)
  | .null => some none
  | j => j.toText?.map some

/-- A shape, at the origin and without a colour of its own unless it says so. -/
def decodeShape (j : Json) : Option Shape := do
  match ← j.fieldsOf? ["kind", "position", "scale", "color"] with
  | [kind, position, scale, color] =>
    let kind ← Json.required (Json.oneOf Kind.ofName?) kind
    let position ← Json.withDefault decodeVec3 .zero position
    let scale ← Json.required Json.toFloat? scale
    let color ← Json.withDefault decodeColor none color
    return ⟨⟨kind, scale⟩, position, color⟩
  | _ => none

/-- Parameters; what is not stated has its default. -/
def decodeParameters (j : Json) : Option Parameters := do
  let d := Parameters.default
  match ← j.fieldsOf? ["unit", "wall_thickness", "resolution", "style"] with
  | [unit, wallThickness, resolution, style] =>
    return {
      unit := ← Json.withDefault (Json.oneOf LengthUnit.ofSymbol?) d.unit unit
      wallThickness := ← Json.withDefault Json.toFloat? d.wallThickness wallThickness
      resolution := ← Json.withDefault Json.toWord? d.resolution resolution
      style := ← Json.withDefault (Json.oneOf Style.ofName?) d.style style }
  | _ => none

/-- A scene file; without parameters it has the defaults, without shapes none. -/
def decode (j : Json) : Option SceneFile := do
  match ← j.fieldsOf? ["parameters", "shapes"] with
  | [parameters, shapes] =>
    return ⟨← Json.withDefault decodeParameters .default parameters,
      ← Json.withDefault (Json.listOf decodeShape) [] shapes⟩
  | _ => none

/-- The scene file that a text is. -/
def read? (text : String) : Option SceneFile := (Json.read? text).bind decode

/-! ### Encoding -/

/-- A point as a value. -/
def encodeVec3 (v : Vec3) : Json :=
  .ofFields [("x", .ofFloat v.x), ("y", .ofFloat v.y), ("z", .ofFloat v.z)]

/-- Parameters as a value. -/
def encodeParameters (p : Parameters) : Json :=
  .ofFields [("unit", .ofString p.unit.symbol), ("wall_thickness", .ofFloat p.wallThickness),
    ("resolution", .ofNat p.resolution.toNat), ("style", .ofString p.style.name)]

/-- A shape as a value; a colour that is the default is not mentioned where none is stored. -/
def encodeShape (s : Shape) : Json :=
  .ofFields ([("kind", .ofString s.kind.name), ("position", encodeVec3 s.position),
    ("scale", .ofFloat s.scale)] ++ (s.color.map fun c => ("color", .ofString c)).toList)

/-- A scene file as a value. -/
def encode (file : SceneFile) : Json :=
  .ofFields [("parameters", encodeParameters file.parameters),
    ("shapes", .array (file.shapes.map encodeShape))]

/-- A scene file as text. -/
def text (file : SceneFile) : String := file.encode.text

end SceneFile

end SolidScene
