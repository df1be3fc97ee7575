import SolidScene.Stl.Facet

/-!
# Meshes as bytes

The binary form of a mesh is a header of eighty bytes that starts with a name, the number of
facets, and fifty bytes for each facet: twelve single-precision numbers and two zero bytes.
Numbers are little-endian.
-/

namespace SolidScene.Stl

/-- The lowest `count` bytes of a number, lowest first. -/
def lowBytes : (count : Nat) → Nat → List UInt8
  | 0, _ => []
  | count + 1, n => n.toUInt8 :: lowBytes count (n / 256)

@[simp] theorem length_lowBytes (count n : Nat) : (lowBytes count n).length = count := by
  induction count generalizing n with
  | zero => rfl
  | succ count ih => simp [lowBytes, ih]

/-- The four bytes of a word, lowest first. -/
def wordBytes (w : UInt32) : List UInt8 := lowBytes 4 w.toNat

/-- The length of the header. -/
def headerSize : Nat := 80

/-- The first bytes of a name, and zeros up to the length of the header. -/
def header (name : String) : List UInt8 :=
  let bytes := name.toUTF8.toList.take headerSize
  bytes ++ List.replicate (headerSize - bytes.length) 0

/-- The bytes of a double, brought to single precision. -/
def singleBytes (x : Float) : List UInt8 := wordBytes x.toFloat32.toBits

/-- The fifty bytes of a facet. -/
def Facet.bytes (f : Facet) : List UInt8 :=
  f.points.flatMap (fun v => v.toList.flatMap singleBytes) ++ [0, 0]

/-- A mesh as bytes. -/
def binary (name : String) (m : Mesh) : List UInt8 :=
  header name ++ wordBytes m.triangles.size.toUInt32 ++ (facets m).flatMap Facet.bytes

end SolidScene.Stl
