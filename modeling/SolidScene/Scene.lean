import SolidScene.Decimal.Layout
import SolidScene.Shape

/-!
# The scene in an editor

A `Scene` is a list of shapes with the index of the one that is selected and of the one that is
being dragged.  An operation that names a shape fails, and changes nothing, where there is no
shape of that index; a scale has to be finite and above zero.
-/

namespace SolidScene

/-- Why an operation on a scene fails. -/
inductive SceneError
  | indexOutOfRange (index length : Nat)
  | invalidScale (scale : Float)
  deriving DecidableEq

/-- What is said about a failure. -/
def SceneError.message : SceneError → String
  | indexOutOfRange index length =>
    "shape index " ++ toString index ++ " out of range (scene has " ++ toString length ++ " shapes)"
  | invalidScale scale => "scale must be positive and finite, got " ++ plainText scale

/-- Shapes in order, one of which may be selected and one dragged. -/
structure Scene where
  shapes : List Shape
  selected : Option Nat
  dragged : Option Nat
  deriving DecidableEq

namespace Scene

/-- A scene of some shapes, none selected and none dragged. -/
def ofShapes (shapes : List Shape) : Scene := ⟨shapes, none, none⟩

/-- The scene without shapes. -/
def empty : Scene := ofShapes []

/-- The scene in which an editor starts: a box of scale one at the origin. -/
def start : Scene := ofShapes [.atOrigin ⟨.box, 1.0⟩]

instance : Inhabited Scene := ⟨empty⟩

/-- The solids of a scene, which is all that a script says of it. -/
def solids (scene : Scene) : List Solid := scene.shapes.map Shape.toSolid

/-- The shape that is selected. -/
def selectedShape? (scene : Scene) : Option Shape :=
  scene.selected.bind fun i => scene.shapes[i]?

/-- The place of a new shape: the cells of a grid of three by three on the ground, one after
another. -/
def defaultPlacement (index : Nat) : Vec3 :=
  ⟨Float.ofNat (index % 3) - 1.0, 0.0, Float.ofNat (index / 3 % 3) - 1.0⟩

/-- A scene with a shape of scale one added at the end. -/
def add (scene : Scene) (kind : Kind) : Scene :=
  { scene with
    shapes := scene.shapes ++ [.ofSolid ⟨kind, 1.0⟩ (defaultPlacement scene.shapes.length)] }

/-- Fails unless there is a shape of this index. -/
def checkIndex (scene : Scene) (index : Nat) : Except SceneError Unit :=
  if index < scene.shapes.length then .ok ()
  else .error (.indexOutOfRange index scene.shapes.length)

/-- A scene in which the shape of an index is changed. -/
def change (scene : Scene) (index : Nat) (f : Shape → Shape) : Scene :=
  { scene with shapes := scene.shapes.modify index f }

/-- A scene in which a shape has another scale; the scale is looked at first. -/
def setScale (scene : Scene) (index : Nat) (scale : Float) : Except SceneError Scene :=
  if Solid.validScale scale then
    (scene.checkIndex index).map fun _ => scene.change index ({ · with scale })
  else .error (.invalidScale scale)

/-- A scene in which a shape is somewhere else. -/
def setPosition (scene : Scene) (index : Nat) (position : Vec3) : Except SceneError Scene :=
  (scene.checkIndex index).map fun _ => scene.change index ({ · with position })

/-- A scene in which one shape, or none, is selected. -/
def select (scene : Scene) : Option Nat → Except SceneError Scene
  | none => .ok { scene with selected := none }
  | some index =>
    (scene.checkIndex index).map fun _ => { scene with selected := some index }

/-- A scene in which a shape is being dragged. -/
def beginDrag (scene : Scene) (index : Nat) : Except SceneError Scene :=
  (scene.checkIndex index).map fun _ => { scene with dragged := some index }

/-- A scene in which the dragged shape follows the pointer over the ground; nothing unless the
shape of this index is the dragged one. -/
def dragTo? (scene : Scene) (index : Nat) (point : Vec3) : Option Scene :=
  if scene.dragged = some index ∧ index < scene.shapes.length then
    some (scene.change index ({ · with position := ⟨point.x, 0.0, point.z⟩ }))
  else none

/-- A scene in which nothing is dragged. -/
def endDrag (scene : Scene) : Scene := { scene with dragged := none }

/-- The scene of some solids, each at the origin and in the colour of its kind; one whose scale is
not finite and above zero is left out. -/
def ofSolids (solids : List Solid) : Scene :=
  ofShapes ((solids.filter fun s => Solid.validScale s.scale).map .atOrigin)

end Scene

end SolidScene
