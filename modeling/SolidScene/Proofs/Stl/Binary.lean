import Mathlib
import SolidScene.Proofs.Mesh.Watertight
import SolidScene.Stl.Export

/-!
# Meshes read back from bytes

`readRecords?` reads the records of a binary mesh: numbers from four bytes each, the lowest first,
twelve of them to a record, and two zero bytes after them.

* What was written of a number, of a row of numbers, of a facet and of a row of facets is read back,
  whatever follows (`readRecords?_flatMap_bytes`), and takes fifty bytes to a facet.
* The triangles of a scene are counted kind by kind (`size_triangles_ofShapes`).
* `readRecords?_binary` puts this together for the bytes of a mesh and of a scene.
-/

namespace SolidScene

namespace Stl

/-! ### Reading -/

/-- The number that bytes spell, the lowest first. -/
def ofLowBytes (bytes : List UInt8) : Nat := bytes.foldr (fun b n => b.toNat + 256 * n) 0

/-- A number from the first four bytes, and the bytes after them. -/
def readSingle? : List UInt8 → Option (Float32 × List UInt8)
  | a :: b :: c :: d :: rest => some (.ofBits (ofLowBytes [a, b, c, d]).toUInt32, rest)
  | _ => none

/-- So many numbers, and the bytes after them. -/
def readSingles? : Nat → List UInt8 → Option (List Float32 × List UInt8)
  | 0, bytes => some ([], bytes)
  | count + 1, bytes => do
    let (x, bytes) ← readSingle? bytes
    let (xs, bytes) ← readSingles? count bytes
    return (x :: xs, bytes)

/-- The numbers in a record. -/
def recordSize : Nat := 12

/-- The numbers of a record, which two zero bytes end, and the bytes after it. -/
def readRecord? (bytes : List UInt8) : Option (List Float32 × List UInt8) :=
  match readSingles? recordSize bytes with
  | some (xs, 0 :: 0 :: rest) => some (xs, rest)
  | _ => none

/-- So many records, with no byte after them. -/
def readRecords? : Nat → List UInt8 → Option (List (List Float32))
  | 0, [] => some []
  | 0, _ :: _ => none
  | count + 1, bytes => do
    let (xs, bytes) ← readRecord? bytes
    let records ← readRecords? count bytes
    return xs :: records

/-- The numbers of a facet in single precision: its normal, then its corners. -/
def Facet.singles (f : Facet) : List Float32 :=
  f.points.flatMap fun v => v.toList.map Float.toFloat32

/-! ### What was written is read back -/

theorem ofLowBytes_lowBytes (count n : Nat) : ofLowBytes (lowBytes count n) = n % 256 ^ count := by
  induction count generalizing n with
  | zero => exact (Nat.mod_one n).symm
  | succ count ih =>
    have hstep : ofLowBytes (lowBytes (count + 1) n) =
        n % 256 + 256 * ofLowBytes (lowBytes count (n / 256)) := rfl
    rw [hstep, ih, pow_succ', Nat.mod_mul]

theorem ofLowBytes_wordBytes (w : UInt32) : ofLowBytes (wordBytes w) = w.toNat := by
  rw [wordBytes, ofLowBytes_lowBytes]
  exact Nat.mod_eq_of_lt w.toNat_lt

theorem readSingle?_append (x : Float) (rest : List UInt8) :
    readSingle? (singleBytes x ++ rest) = some (x.toFloat32, rest) := by
  have hword : (ofLowBytes (singleBytes x)).toUInt32 = x.toFloat32.toBits := by
    rw [singleBytes, ofLowBytes_wordBytes]
    exact UInt32.ofNat_toNat
  have hread : readSingle? (singleBytes x ++ rest) =
      some (.ofBits (ofLowBytes (singleBytes x)).toUInt32, rest) := rfl
  rw [hread, hword, Float32.ofBits_toBits]

theorem readSingles?_append (xs : List Float) (rest : List UInt8) :
    readSingles? xs.length (xs.flatMap singleBytes ++ rest) =
      some (xs.map Float.toFloat32, rest) := by
  induction xs with
  | nil => rfl
  | cons x xs ih =>
    rw [List.flatMap_cons, List.append_assoc, List.length_cons, readSingles?, readSingle?_append]
    change (readSingles? xs.length (xs.flatMap singleBytes ++ rest)).bind _ = _
    rw [ih]
    rfl

theorem readRecord?_append (f : Facet) (rest : List UInt8) :
    readRecord? (f.bytes ++ rest) = some (f.singles, rest) := by
  have hread := readSingles?_append (f.points.flatMap Vec3.toList) (0 :: 0 :: rest)
  have hsize : (f.points.flatMap Vec3.toList).length = recordSize := rfl
  have hbytes : f.bytes ++ rest =
      (f.points.flatMap Vec3.toList).flatMap singleBytes ++ 0 :: 0 :: rest := by
    rw [Facet.bytes, List.flatMap_assoc, List.append_assoc]
    rfl
  rw [readRecord?, hbytes, ← hsize, hread, List.map_flatMap]
  rfl

theorem readRecords?_flatMap_bytes (fs : List Facet) :
    readRecords? fs.length (fs.flatMap Facet.bytes) = some (fs.map Facet.singles) := by
  induction fs with
  | nil => rfl
  | cons f fs ih =>
    rw [List.flatMap_cons, List.length_cons, readRecords?, readRecord?_append]
    change (readRecords? fs.length (fs.flatMap Facet.bytes)).bind _ = _
    rw [ih]
    rfl

/-! ### Sizes -/

theorem length_singleBytes (x : Float) : (singleBytes x).length = 4 := length_lowBytes 4 _

theorem Facet.length_bytes (f : Facet) : f.bytes.length = 50 := by
  simp [Facet.bytes, Facet.points, Vec3.toList, length_singleBytes]

theorem length_flatMap_bytes (fs : List Facet) :
    (fs.flatMap Facet.bytes).length = 50 * fs.length := by
  induction fs with
  | nil => rfl
  | cons f fs ih =>
    rw [List.flatMap_cons, List.length_append, f.length_bytes, ih, List.length_cons]
    omega

theorem length_header (name : String) : (header name).length = headerSize := by
  rw [header, List.length_append, List.length_replicate]
  exact Nat.add_sub_cancel' (List.length_take_le _ _)

/-- The header is the name with zeros after it, cut. -/
theorem header_eq_take (name : String) :
    header name = (name.toUTF8.toList ++ List.replicate headerSize 0).take headerSize := by
  rw [header, List.take_append, List.take_replicate, List.length_take]
  congr 2
  omega

theorem length_facets (m : Mesh) : (facets m).length = m.triangles.size := by
  rw [facets, List.length_map, Array.length_toList]

/-- The facets of a mesh whose indices are all in range lie at its vertices. -/
theorem forall₂_facets {m : Mesh} (h : ∀ t ∈ m.triangles, t.a.toNat < m.vertices.size ∧
      t.b.toNat < m.vertices.size ∧ t.c.toNat < m.vertices.size) :
    List.Forall₂ (fun t f => m.vertices[t.a.toNat]? = some f.a ∧ m.vertices[t.b.toNat]? = some f.b ∧
      m.vertices[t.c.toNat]? = some f.c ∧ f.normal = unitNormal f.a f.b f.c)
      m.triangles.toList (facets m) := by
  have hcorner {i : UInt32} (hi : i.toNat < m.vertices.size) :
      m.vertices[i.toNat]? = some (m.corner i) := by
    rw [Mesh.corner, Array.getD_eq_getD_getElem?, Array.getElem?_eq_getElem hi, Option.getD_some]
  rw [facets, List.forall₂_map_right_iff, List.forall₂_same]
  intro t ht
  obtain ⟨ha, hb, hc⟩ := h t (Array.mem_toList_iff.1 ht)
  exact ⟨hcorner ha, hcorner hb, hcorner hc, rfl⟩

end Stl

/-! ### Counting triangles -/

/-- The number of triangles of a solid with `n` divisions. -/
def Kind.triangleCount (n : Nat) : Kind → Nat
  | box => 12
  | sphere => 2 * n * (n - 1)
  | cylinder => 4 * n

namespace Mesh

theorem length_sphereTriangles {n : Nat} (hn : 2 ≤ n) :
    (sphereTriangles n).length = 2 * n * (n - 1) := by
  obtain ⟨k, rfl⟩ := Nat.exists_eq_add_of_le' hn
  have hband (ring : Nat) : ((List.range (k + 2)).flatMap fun j =>
      Triangle.ofQuad (ringIndex (k + 2) ring j) (ringIndex (k + 2) ring (j + 1))
        (ringIndex (k + 2) (ring + 1) (j + 1)) (ringIndex (k + 2) (ring + 1) j)).length =
      (k + 2) * 2 := by
    simp [List.length_flatMap, Triangle.ofQuad]
  have hbands : (k + 2) + (k * ((k + 2) * 2) + (k + 2)) = 2 * (k + 2) * (k + 1) := by ring
  simpa [sphereTriangles, List.length_flatMap, hband] using hbands

theorem length_cylinderTriangles (n : Nat) : (cylinderTriangles n).length = 4 * n := by
  simp [cylinderTriangles, List.length_flatMap, Triangle.ofQuad, Nat.mul_comm]

theorem size_triangles_mesh (segments : UInt32) (s : Shape) :
    (s.mesh segments).triangles.size = s.kind.triangleCount (max segments.toNat 3) := by
  have hn : 2 ≤ divisions segments := Nat.le_of_succ_le (three_le_divisions segments)
  obtain ⟨⟨kind, scale⟩, position, color⟩ := s
  cases kind with
  | box => rfl
  | sphere => exact length_sphereTriangles hn
  | cylinder => exact length_cylinderTriangles (divisions segments)

theorem size_triangles_withShapes (segments : UInt32) (m : Mesh) (shapes : List Shape) :
    (withShapes segments m shapes).triangles.size = m.triangles.size +
      (shapes.map fun s => s.kind.triangleCount (max segments.toNat 3)).sum := by
  induction shapes generalizing m with
  | nil => rfl
  | cons s rest ih =>
    rw [withShapes_cons, ih, triangles_append, Array.size_append, Array.size_map,
      size_triangles_mesh, List.map_cons, List.sum_cons, Nat.add_assoc]

/-- The triangles of the mesh of some shapes are those of each of them. -/
theorem size_triangles_ofShapes (segments : UInt32) (shapes : List Shape) :
    (ofShapes segments shapes).triangles.size =
      (shapes.map fun s => s.kind.triangleCount (max segments.toNat 3)).sum :=
  (size_triangles_withShapes segments .empty shapes).trans (Nat.zero_add _)

end Mesh

namespace Stl

/-- The bytes of a mesh in parts: header, count and records. -/
theorem binary_parts (name : String) (m : Mesh) :
    (binary name m).take headerSize = header name ∧
      ofLowBytes (((binary name m).drop headerSize).take 4) = m.triangles.size % 2 ^ 32 ∧
      (binary name m).drop (headerSize + 4) = (facets m).flatMap Facet.bytes ∧
      (binary name m).length = headerSize + 4 + 50 * m.triangles.size := by
  have hheader := length_header name
  have hcount : (wordBytes m.triangles.size.toUInt32).length = 4 := length_lowBytes 4 _
  have hfront : (header name ++ wordBytes m.triangles.size.toUInt32).length = headerSize + 4 := by
    rw [List.length_append, hheader, hcount]
  refine ⟨?_, ?_, ?_, ?_⟩
  · rw [binary, List.append_assoc, List.take_left' hheader]
  · rw [binary, List.append_assoc, List.drop_left' hheader, List.take_left' hcount,
      ofLowBytes_wordBytes]
    rfl
  · rw [binary, List.drop_left' hfront]
  · rw [binary, List.length_append, hfront, length_flatMap_bytes, length_facets]

/-- **A mesh is read back from its bytes**, up to the precision of the numbers.  There are 84 bytes
and fifty more to a triangle: the first eighty are those of the name, cut or filled up with zeros,
the next four the number of triangles, and the rest is read as so many records, which are the facets
of the mesh in single precision, in order.  A scene has twelve triangles for each box, `2 n (n - 1)`
for each sphere and `4 n` for each cylinder, `n` being the number of segments but at least three. -/
theorem readRecords?_binary {m : Mesh} (hcount : m.triangles.size < 2 ^ 32)
    (hindices : ∀ t ∈ m.triangles, t.a.toNat < m.vertices.size ∧ t.b.toNat < m.vertices.size ∧
      t.c.toNat < m.vertices.size) (name : String) :
    ((binary name m).length = 84 + 50 * m.triangles.size ∧
      (binary name m).take 80 = (name.toUTF8.toList ++ List.replicate 80 0).take 80 ∧
      ofLowBytes (((binary name m).drop 80).take 4) = m.triangles.size ∧
      readRecords? m.triangles.size ((binary name m).drop 84) =
        some ((facets m).map Facet.singles) ∧
      List.Forall₂ (fun t f => m.vertices[t.a.toNat]? = some f.a ∧
        m.vertices[t.b.toNat]? = some f.b ∧ m.vertices[t.c.toNat]? = some f.c ∧
        f.normal = unitNormal f.a f.b f.c) m.triangles.toList (facets m)) ∧
    ∀ (segments : UInt32) (shapes : List Shape),
      let n := max segments.toNat 3
      let count := (shapes.map fun s => match s.kind with
        | .box => 12
        | .sphere => 2 * n * (n - 1)
        | .cylinder => 4 * n).sum
      exportShapes .binary segments shapes = binary sceneName (Mesh.ofShapes segments shapes) ∧
        (Mesh.ofShapes segments shapes).triangles.size = count ∧
        (exportShapes .binary segments shapes).length = 84 + 50 * count := by
  constructor
  · obtain ⟨hheader, hword, hrecords, hlength⟩ := binary_parts name m
    rw [header_eq_take] at hheader
    rw [Nat.mod_eq_of_lt hcount] at hword
    refine ⟨hlength, hheader, hword, ?_, forall₂_facets hindices⟩
    have hread := readRecords?_flatMap_bytes (facets m)
    rw [length_facets, ← hrecords] at hread
    exact hread
  · intro segments shapes n count
    have hsize : (Mesh.ofShapes segments shapes).triangles.size = count := by
      rw [Mesh.size_triangles_ofShapes]
      congr 2
    refine ⟨rfl, hsize, ?_⟩
    rw [← hsize]
    exact (binary_parts sceneName (Mesh.ofShapes segments shapes)).2.2.2

theorem readRecords?_binary_assortment :
    let m := Mesh.ofShapes 3 Mesh.assortment
    (m.triangles.size < 2 ^ 32 ∧ ∀ t ∈ m.triangles, t.a.toNat < m.vertices.size ∧
      t.b.toNat < m.vertices.size ∧ t.c.toNat < m.vertices.size) ∧
    (binary sceneName m).length = 1884 ∧
      readRecords? 36 ((binary sceneName m).drop 84) = some ((facets m).map Facet.singles) := by
  intro m
  have hsize : m.triangles.size = 36 := by decide +kernel
  have hindices : ∀ t ∈ m.triangles, t.a.toNat < m.vertices.size ∧
      t.b.toNat < m.vertices.size ∧ t.c.toNat < m.vertices.size := by decide +kernel
  have hcount : m.triangles.size < 2 ^ 32 := by rw [hsize]; decide
  obtain ⟨⟨hlength, -, -, hread, -⟩, -⟩ := readRecords?_binary hcount hindices sceneName
  rw [hsize] at hlength hread
  exact ⟨⟨hcount, hindices⟩, hlength, hread⟩

end Stl

end SolidScene
