import SolidScene.Stl.Ascii
import SolidScene.Stl.Binary
import SolidScene.Tessellation

/-!
# Exporting a scene

The shapes of a scene are merged into one mesh and written in one of the two forms, under a
fixed name.  Lengths are those of the scene; no unit is applied.
-/

namespace SolidScene.Stl

/-- The form in which a mesh is written. -/
inductive Format
  | binary
  | ascii
  deriving DecidableEq, Repr

/-- The name that an exported mesh carries. -/
def sceneName : String := "scene"

/-- The segments of curved shapes where none are asked for. -/
def defaultSegments : UInt32 := 32

/-- The bytes of a file that holds the mesh of some shapes. -/
def exportShapes (format : Format) (segments : UInt32) (shapes : List Shape) : List UInt8 :=
  let mesh := Mesh.ofShapes segments shapes
  match format with
  | .binary => binary sceneName mesh
  | .ascii => (ascii sceneName mesh).toUTF8.toList

end SolidScene.Stl
