import SolidScene.Mesh
import SolidScene.Shape

/-!
# Shapes as meshes

A box has its eight corners.  A cylinder has two rings of vertices and a centre in each of its
ends.  A sphere has a vertex at each pole and rings between them, as many bands from pole to
pole as there are divisions around the axis.  There are at least three divisions, and the axis
is the vertical one.  Sine and cosine come from outside, as `Trigonometry`.
-/

namespace SolidScene

/-- The sine and the cosine with which rings are laid out. -/
class Trigonometry where
  sin : Float → Float
  cos : Float → Float

namespace Trigonometry

/-- The sine and the cosine of the machine. -/
instance machine : Trigonometry := ⟨Float.sin, Float.cos⟩

end Trigonometry

namespace Mesh

open Trigonometry (sin cos)

/-- Half a turn in radians. -/
def halfTurn : Float := 3.141592653589793

/-- A full turn in radians. -/
def fullTurn : Float := 6.283185307179586

/-- Part `i` of `n` of an angle. -/
def part (angle : Float) (i n : Nat) : Float := angle * Float.ofNat i / Float.ofNat n

/-! ### Boxes -/

/-- Corner `i` of a box: bits 0, 1 and 2 of `i` choose the side along x, y and z. -/
def boxCorner (half : Float) (i : Nat) : Vec3 :=
  let side (bit : Nat) : Float := if i.testBit bit then half else -half
  ⟨side 0, side 1, side 2⟩

/-- The triangles of a box, two to a face. -/
def boxTriangles : List Triangle :=
  Triangle.ofQuad 0 4 6 2 ++ Triangle.ofQuad 1 3 7 5 ++ Triangle.ofQuad 0 1 5 4 ++
    Triangle.ofQuad 2 6 7 3 ++ Triangle.ofQuad 0 2 3 1 ++ Triangle.ofQuad 4 5 7 6

/-- A box around a centre. -/
def box (center : Vec3) (edge : Float) : Mesh :=
  around center ((List.range 8).map (boxCorner (edge * 0.5))) boxTriangles

/-! ### Spheres -/

/-- Ring `i` of `n` below the upper pole. -/
def sphereRing [Trigonometry] (radius : Float) (n i : Nat) : List Vec3 :=
  let theta := part halfTurn i n
  (List.range n).map fun j =>
    let phi := part fullTurn j n
    ⟨radius * sin theta * cos phi, radius * cos theta, radius * sin theta * sin phi⟩

/-- The vertices of a sphere: the upper pole, the rings downwards, the lower pole. -/
def sphereVertices [Trigonometry] (radius : Float) (n : Nat) : List Vec3 :=
  [⟨0.0, radius, 0.0⟩] ++ (List.range (n - 1)).flatMap (fun i => sphereRing radius n (i + 1)) ++
    [⟨0.0, -radius, 0.0⟩]

/-- The index of vertex `j` of a ring, the rings being counted from zero and `j` round the ring. -/
def ringIndex (n ring j : Nat) : Nat := 1 + ring * n + j % n

/-- The triangles of a sphere: the fan at the upper pole, the bands downwards, the fan at the lower
pole. -/
def sphereTriangles (n : Nat) : List Triangle :=
  (List.range n).map (fun j => .ofNats 0 (ringIndex n 0 (j + 1)) (ringIndex n 0 j)) ++
    (List.range (n - 2)).flatMap (fun ring =>
      (List.range n).flatMap fun j =>
        Triangle.ofQuad (ringIndex n ring j) (ringIndex n ring (j + 1))
          (ringIndex n (ring + 1) (j + 1)) (ringIndex n (ring + 1) j)) ++
    (List.range n).map (fun j =>
      .ofNats (ringIndex n (n - 2) j) (ringIndex n (n - 2) (j + 1)) (1 + (n - 1) * n))

/-- A sphere around a centre, with `n` divisions. -/
def sphere [Trigonometry] (center : Vec3) (radius : Float) (n : Nat) : Mesh :=
  around center (sphereVertices radius n) (sphereTriangles n)

/-! ### Cylinders -/

/-- A ring of `n` vertices at a height. -/
def cylinderRing [Trigonometry] (radius height : Float) (n : Nat) : List Vec3 :=
  (List.range n).map fun j =>
    let phi := part fullTurn j n
    ⟨radius * cos phi, height, radius * sin phi⟩

/-- The vertices of a cylinder: the upper ring, the lower ring, the two centres. -/
def cylinderVertices [Trigonometry] (radius half : Float) (n : Nat) : List Vec3 :=
  cylinderRing radius half n ++ cylinderRing radius (-half) n ++
    [⟨0.0, half, 0.0⟩, ⟨0.0, -half, 0.0⟩]

/-- The triangles of a cylinder: for each division two of the side and one of each end. -/
def cylinderTriangles (n : Nat) : List Triangle :=
  (List.range n).flatMap fun j =>
    let next := (j + 1) % n
    Triangle.ofQuad j next (n + next) (n + j) ++
      [.ofNats (2 * n) next j, .ofNats (n + j) (n + next) (2 * n + 1)]

/-- A cylinder around a centre, with `n` divisions. -/
def cylinder [Trigonometry] (center : Vec3) (radius height : Float) (n : Nat) : Mesh :=
  around center (cylinderVertices radius (height * 0.5) n) (cylinderTriangles n)

end Mesh

/-! ### Shapes and scenes -/

/-- The number of divisions for a number of segments. -/
def divisions (segments : UInt32) : Nat := max segments.toNat 3

/-- The mesh of a shape. -/
def Shape.mesh [Trigonometry] (segments : UInt32) (s : Shape) : Mesh :=
  match s.dimensions with
  | .box edge => .box s.position edge
  | .sphere radius => .sphere s.position radius (divisions segments)
  | .cylinder radius height => .cylinder s.position radius height (divisions segments)

/-- The meshes of some shapes in one, in list order. -/
def Mesh.ofShapes [Trigonometry] (segments : UInt32) (shapes : List Shape) : Mesh :=
  shapes.foldl (fun m s => m ++ s.mesh segments) .empty

end SolidScene
