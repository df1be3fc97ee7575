/-!
# Points and vectors

A `Vec3` is a point or a displacement with double coordinates, the Y axis pointing up.  Sums,
differences and products are worked out coordinate by coordinate in the order written, each
step rounded.
-/

namespace SolidScene

/-- A point or a displacement in space. -/
structure Vec3 where
  x : Float
  y : Float
  z : Float
  deriving DecidableEq, Inhabited

namespace Vec3

/-- The origin. -/
def zero : Vec3 := ⟨0.0, 0.0, 0.0⟩

instance : Add Vec3 := ⟨fun a b => ⟨a.x + b.x, a.y + b.y, a.z + b.z⟩⟩
instance : Sub Vec3 := ⟨fun a b => ⟨a.x - b.x, a.y - b.y, a.z - b.z⟩⟩

/-- Every coordinate divided by one number. -/
def divide (a : Vec3) (d : Float) : Vec3 := ⟨a.x / d, a.y / d, a.z / d⟩

/-- The cross product, by the right-hand rule. -/
def cross (a b : Vec3) : Vec3 :=
  ⟨a.y * b.z - a.z * b.y, a.z * b.x - a.x * b.z, a.x * b.y - a.y * b.x⟩

/-- The length. -/
def length (a : Vec3) : Float := (a.x * a.x + a.y * a.y + a.z * a.z).sqrt

/-- Whether a point is the origin; the sign of a zero does not matter. -/
def isOrigin (a : Vec3) : Bool := a.x == 0.0 && a.y == 0.0 && a.z == 0.0

/-- The three coordinates in order. -/
def toList (a : Vec3) : List Float := [a.x, a.y, a.z]

end Vec3

end SolidScene
