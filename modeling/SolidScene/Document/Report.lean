import SolidScene.Document.Scene
import SolidScene.Report

/-!
# Report files

A report as JSON: the parameters, the number of shapes in all and of each kind, the box they
fill, and the warnings by name and text.
-/

namespace SolidScene

namespace Report

/-- A box as a value. -/
def encodeBounds (b : Bounds) : Json :=
  .ofFields [("min", SceneFile.encodeVec3 b.min), ("max", SceneFile.encodeVec3 b.max)]

/-- A warning as a value. -/
def encodeWarning (w : Warning) : Json :=
  .ofFields [("code", .ofString w.code), ("message", .ofString w.message)]

/-- A report as a value. -/
def encode (r : Report) : Json :=
  .ofFields [("parameters", SceneFile.encodeParameters r.parameters),
    ("shape_count", .ofNat r.shapeCount),
    ("counts", .ofFields (Kind.all.map fun k => (k.name, .ofNat (r.counts.get k)))),
    ("extents", (r.extents.map encodeBounds).getD .null),
    ("warnings", .array (r.warnings.map encodeWarning))]

/-- A report as text. -/
def text (r : Report) : String := r.encode.text

end Report

end SolidScene
