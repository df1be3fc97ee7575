import SolidScene.Mesh

/-!
# Facets

A mesh is exported as a list of facets: the corners of each triangle with its unit normal by
the right-hand rule.  A triangle whose corners lie too near a line has the zero normal.
-/

namespace SolidScene.Stl

/-- A triangle in space with its normal. -/
structure Facet where
  normal : Vec3
  a : Vec3
  b : Vec3
  c : Vec3
  deriving DecidableEq

/-- A cross product no longer than this has no direction: `2 ^ (-52)`. -/
def flatness : Float := 2.220446049250313e-16

/-- The unit normal of a triangle; zero where the corners lie on a line, nearly. -/
def unitNormal (a b c : Vec3) : Vec3 :=
  let n := (b - a).cross (c - a)
  if n.length ≤ flatness then .zero else n.divide n.length

namespace Facet

/-- The facet of three corners. -/
def ofCorners (a b c : Vec3) : Facet := ⟨unitNormal a b c, a, b, c⟩

/-- The normal and the corners in order. -/
def points (f : Facet) : List Vec3 := [f.normal, f.a, f.b, f.c]

end Facet

/-- The facet of a triangle of a mesh. -/
def facet (m : Mesh) (t : Triangle) : Facet :=
  .ofCorners (m.corner t.a) (m.corner t.b) (m.corner t.c)

/-- The facets of a mesh in the order of its triangles. -/
def facets (m : Mesh) : List Facet := m.triangles.toList.map (facet m)

end SolidScene.Stl
