import SolidScene.Geometry.Bounds

/-!
# Solids and shapes

A scene is made of three kinds of solid.  A `Solid` is a kind and a scale: all that a script
says of it.  A `Shape` places a solid and may colour it.  The dimensions of a solid are its
scale times fixed factors: a box has edge `scale`, a sphere radius `0.7 · scale`, a cylinder
radius `0.5 · scale` and height `1.5 · scale`.
-/

namespace SolidScene

/-- The kinds of solid. -/
inductive Kind
  | box
  | sphere
  | cylinder
  deriving DecidableEq, Repr, Inhabited

namespace Kind

/-- All kinds, in the order in which reports list them. -/
def all : List Kind := [box, sphere, cylinder]

/-- The name of a kind in files and reports. -/
def name : Kind → String
  | box => "box"
  | sphere => "sphere"
  | cylinder => "cylinder"

/-- The kind of a given name. -/
def ofName? (s : String) : Option Kind := all.find? (·.name == s)

@[simp] theorem ofName?_name (k : Kind) : ofName? k.name = some k := by cases k <;> decide

/-- The colour of a shape that names none. -/
def defaultColor : Kind → String
  | box => "blue"
  | sphere => "skyblue"
  | cylinder => "lightgreen"

end Kind

/-- The radius of a sphere of scale one. -/
def sphereRadiusFactor : Float := 0.7

/-- The radius of a cylinder of scale one. -/
def cylinderRadiusFactor : Float := 0.5

/-- The height of a cylinder of scale one. -/
def cylinderHeightFactor : Float := 1.5

/-- The dimensions of a solid. -/
inductive Dimensions
  | box (edge : Float)
  | sphere (radius : Float)
  | cylinder (radius height : Float)
  deriving DecidableEq

/-- How far a solid of these dimensions reaches from its centre along each axis. -/
def Dimensions.halfExtents : Dimensions → Vec3
  | .box edge => ⟨edge * 0.5, edge * 0.5, edge * 0.5⟩
  | .sphere radius => ⟨radius, radius, radius⟩
  | .cylinder radius height => ⟨radius, height * 0.5, radius⟩

/-- A kind and a scale: what script text says of a shape. -/
structure Solid where
  kind : Kind
  scale : Float
  deriving DecidableEq

namespace Solid

/-- The dimensions of a solid. -/
def dimensions (s : Solid) : Dimensions :=
  match s.kind with
  | .box => .box s.scale
  | .sphere => .sphere (sphereRadiusFactor * s.scale)
  | .cylinder => .cylinder (cylinderRadiusFactor * s.scale) (cylinderHeightFactor * s.scale)

/-- A scale that a shape of a scene may have: finite and above zero. -/
def validScale (scale : Float) : Bool := scale.isFinite && scale > 0.0

end Solid

/-- A solid with a place and, unless the default is meant, a colour. -/
structure Shape extends Solid where
  position : Vec3
  color : Option String
  deriving DecidableEq

namespace Shape

/-- A solid at a place, in the colour of its kind. -/
def ofSolid (s : Solid) (position : Vec3) : Shape := ⟨s, position, some s.kind.defaultColor⟩

/-- A solid at the origin, in the colour of its kind. -/
def atOrigin (s : Solid) : Shape := ofSolid s .zero

/-- The colour in which a shape is drawn. -/
def displayColor (s : Shape) : String := s.color.getD s.kind.defaultColor

/-- Whether a shape is drawn in the colour of its kind. -/
def hasDefaultColor (s : Shape) : Bool := s.displayColor == s.kind.defaultColor

/-- The box that a shape fills. -/
def bounds (s : Shape) : Bounds := .around s.position s.dimensions.halfExtents

@[simp] theorem ofSolid_toSolid (s : Solid) (p : Vec3) : (ofSolid s p).toSolid = s := rfl

@[simp] theorem displayColor_ofSolid (s : Solid) (p : Vec3) :
    (ofSolid s p).displayColor = s.kind.defaultColor := rfl

end Shape

end SolidScene
