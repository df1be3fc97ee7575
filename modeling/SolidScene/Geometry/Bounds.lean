import SolidScene.Geometry.Vec3

/-!
# Axis-aligned boxes

`Bounds` is a box between a lowest and a highest corner.  It grows from `Bounds.empty`, the
inverted infinite box, by points (`includePoint`) and by other boxes (`union`).  A coordinate
that is not a number counts for nothing where another one stands beside it.
-/

namespace SolidScene

/-- The lesser of two doubles; one that is not a number gives way to the other. -/
def lesser (a b : Float) : Float := if a.isNaN then b else if b < a then b else a

/-- The greater of two doubles; one that is not a number gives way to the other. -/
def greater (a b : Float) : Float := if a.isNaN then b else if a < b then b else a

/-- The box between two corners. -/
structure Bounds where
  min : Vec3
  max : Vec3
  deriving DecidableEq, Inhabited

namespace Bounds

/-- Positive infinity. -/
def infinity : Float := 1.0 / 0.0

/-- The box without a point: its corners are inverted. -/
def empty : Bounds :=
  ⟨⟨infinity, infinity, infinity⟩, ⟨-infinity, -infinity, -infinity⟩⟩

/-- The box around a centre, reaching `half` to either side along each axis. -/
def around (center half : Vec3) : Bounds := ⟨center - half, center + half⟩

/-- Whether the corners are inverted along some axis. -/
def isEmpty (b : Bounds) : Bool :=
  b.min.x > b.max.x || b.min.y > b.max.y || b.min.z > b.max.z

/-- The least box around a box and a point. -/
def includePoint (b : Bounds) (p : Vec3) : Bounds :=
  ⟨⟨lesser b.min.x p.x, lesser b.min.y p.y, lesser b.min.z p.z⟩,
    ⟨greater b.max.x p.x, greater b.max.y p.y, greater b.max.z p.z⟩⟩

/-- The least box around two boxes; an empty one adds nothing. -/
def union (a b : Bounds) : Bounds :=
  if a.isEmpty then b
  else if b.isEmpty then a
  else (a.includePoint b.min).includePoint b.max

/-- The extent along each axis, never negative. -/
def size (b : Bounds) : Vec3 :=
  ⟨greater (b.max.x - b.min.x) 0.0, greater (b.max.y - b.min.y) 0.0,
    greater (b.max.z - b.min.z) 0.0⟩

end Bounds

end SolidScene
