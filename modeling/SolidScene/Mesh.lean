import SolidScene.Geometry.Bounds

/-!
# Triangle meshes

A `Mesh` is an array of vertices and an array of triangles that name their corners by index.
Seen from outside, the corners of a triangle go round counter-clockwise.  Indices are 32-bit
words; `Mesh.append` moves those of the second mesh up by the number of vertices of the first.
-/

namespace SolidScene

/-- Three vertices by index, in winding order. -/
structure Triangle where
  a : UInt32
  b : UInt32
  c : UInt32
  deriving DecidableEq, Repr, Inhabited

namespace Triangle

/-- The triangle of three indices. -/
def ofNats (a b c : Nat) : Triangle := ⟨a.toUInt32, b.toUInt32, c.toUInt32⟩

/-- A triangle with every index moved up. -/
def shift (offset : UInt32) (t : Triangle) : Triangle :=
  ⟨t.a + offset, t.b + offset, t.c + offset⟩

/-- The two triangles of a quadrilateral, cut from its first corner to its third. -/
def ofQuad (a b c d : Nat) : List Triangle := [ofNats a b c, ofNats a c d]

end Triangle

/-- Vertices, and triangles between them. -/
structure Mesh where
  vertices : Array Vec3
  triangles : Array Triangle
  deriving DecidableEq, Inhabited

namespace Mesh

/-- The mesh without vertices. -/
def empty : Mesh := ⟨#[], #[]⟩

/-- The mesh of some vertices, given relative to a centre, and the triangles between them. -/
def around (center : Vec3) (offsets : List Vec3) (triangles : List Triangle) : Mesh :=
  ⟨(offsets.map (center + ·)).toArray, triangles.toArray⟩

/-- Whether a mesh has no triangle. -/
def isEmpty (m : Mesh) : Bool := m.triangles.isEmpty

/-- Two meshes in one. -/
def append (m n : Mesh) : Mesh :=
  ⟨m.vertices ++ n.vertices, m.triangles ++ n.triangles.map (.shift m.vertices.size.toUInt32)⟩

instance : Append Mesh := ⟨append⟩

@[simp] theorem vertices_append (m n : Mesh) : (m ++ n).vertices = m.vertices ++ n.vertices := rfl

@[simp] theorem triangles_append (m n : Mesh) :
    (m ++ n).triangles =
      m.triangles ++ n.triangles.map (.shift m.vertices.size.toUInt32) := rfl

/-- The vertex of an index; the origin where there is none. -/
def corner (m : Mesh) (i : UInt32) : Vec3 := m.vertices.getD i.toNat .zero

/-- The box around all vertices. -/
def bounds (m : Mesh) : Bounds := m.vertices.foldl .includePoint .empty

end Mesh

end SolidScene
