import SolidScene.Proofs.Mesh.Rings
import SolidScene.Tessellation

/-!
# Meshes of shapes are watertight

The triangles of a sphere are those of rings between two poles, with the vertices numbered from the
upper pole downwards; those of a cylinder are the faces of two rings in another order, with the
centres of the ends for poles and numbered last.  A box is checked face by face.  Since meshes
appended to each other stay apart, the mesh of any scene is watertight as long as its indices fit in
32 bits (`watertight_ofShapes`).
-/

namespace SolidScene

namespace Mesh

open RingVertex Cell

/-! ### Boxes -/

theorem surface_box : Surface 8 (boxTriangles.map Triangle.face) where
  proper := by decide
  nodup := by decide
  twin := by decide
  mem_cornersOf_iff := by
    have hlt : ∀ i ∈ cornersOf (boxTriangles.map Triangle.face), i < 8 := by decide
    have hmem : ∀ i < 8, i ∈ cornersOf (boxTriangles.map Triangle.face) := by decide
    exact fun i => ⟨hlt i, hmem i⟩

/-! ### Places on rings in a row -/

section Places

variable {n : Nat}

theorem ring_position_lt {k m : Nat} (hk : k < m) (i : Fin n) : k * n + i < m * n :=
  calc k * n + i < k * n + n := Nat.add_lt_add_left i.isLt _
    _ = (k + 1) * n := (Nat.succ_mul k n).symm
    _ ≤ m * n := Nat.mul_le_mul_right n hk

theorem ring_position_inj {k l : Nat} {i j : Fin n} (h : k * n + i = l * n + j) :
    k = l ∧ i = j := by
  have hn : 0 < n := Nat.lt_of_le_of_lt (Nat.zero_le _) i.isLt
  have hlevel (k : Nat) (i : Fin n) : (k * n + i) / n = k := by
    rw [Nat.mul_comm, Nat.mul_add_div hn, Nat.div_eq_of_lt i.isLt, Nat.add_zero]
  have hplace (k : Nat) (i : Fin n) : (k * n + i) % n = i := by
    rw [Nat.mul_add_mod_self_right, Nat.mod_eq_of_lt i.isLt]
  refine ⟨?_, Fin.ext ?_⟩
  · rw [← hlevel k i, h, hlevel]
  · rw [← hplace k i, h, hplace]

/-- Every number below `m * n` is that of a place on one of `m` rings. -/
theorem exists_ring_position {m i : Nat} (h : i < m * n) :
    ∃ k < m, ∃ j : Fin n, k * n + j = i := by
  have hn : 0 < n := by
    by_contra hzero
    rw [Nat.eq_zero_of_not_pos hzero, Nat.mul_zero] at h
    cases h
  exact ⟨i / n, Nat.div_lt_of_lt_mul (by rwa [Nat.mul_comm]), ⟨i % n, Nat.mod_lt i hn⟩,
    Nat.div_add_mod' i n⟩

/-- A row of items over the numbers below `n` is one over the places of a ring. -/
theorem map_range_eq_map_finRange {α : Type} (f : Nat → α) :
    (List.range n).map f = (List.finRange n).map fun i : Fin n => f i := by
  rw [← List.map_coe_finRange_eq_range, List.map_map]
  rfl

theorem flatMap_range_eq_flatMap_finRange {α : Type} (f : Nat → List α) :
    (List.range n).flatMap f = (List.finRange n).flatMap fun i : Fin n => f i := by
  rw [List.flatMap_def, List.flatMap_def, map_range_eq_map_finRange]

end Places

/-! ### Rings with numbered vertices -/

section Numbered

variable {n last rings first upperPole lowerPole size : Nat}

/-- The number of a vertex: the places of the rings are numbered in a row from `first` on. -/
def ringNumber (n first upperPole lowerPole : Nat) : RingVertex n → Nat
  | upper => upperPole
  | ring k i => first + (k * n + i)
  | lower => lowerPole

/-- Rings are a surface when their places and the two poles take up all numbers below the size. -/
theorem surface_rings [NeZero n] (hn : 3 ≤ n) (hrings : last + 1 = rings)
    (hpoles : upperPole ≠ lowerPole)
    (hupper : upperPole < first ∨ first + rings * n ≤ upperPole)
    (hlower : lowerPole < first ∨ first + rings * n ≤ lowerPole)
    (hsize : ∀ i, i < size ↔
      i = upperPole ∨ i = lowerPole ∨ first ≤ i ∧ i < first + rings * n) :
    Surface size
      ((ringFaces n last).map (Face.map (ringNumber n first upperPole lowerPole))) := by
  have hplace {k : Nat} {i : Fin n} (h : ∀ l j, ring k i = ring l j → l ≤ last) :
      k * n + i < rings * n := ring_position_lt (hrings ▸ Nat.lt_succ_of_le (h k i rfl)) i
  refine (closed_ringFaces hn).surface ?_ ?_
  · intro v hv w hw heq
    rw [mem_cornersOf_ringFaces] at hv hw
    cases v with
    | upper =>
      cases w with
      | upper => rfl
      | ring l j =>
        have := hplace hw
        simp only [ringNumber] at heq
        omega
      | lower => exact absurd heq hpoles
    | ring k i =>
      have hvplace := hplace hv
      cases w with
      | upper =>
        simp only [ringNumber] at heq
        omega
      | ring l j =>
        obtain ⟨rfl, rfl⟩ := ring_position_inj (Nat.add_left_cancel heq)
        rfl
      | lower =>
        simp only [ringNumber] at heq
        omega
    | lower =>
      cases w with
      | upper => exact absurd heq.symm hpoles
      | ring l j =>
        have := hplace hw
        simp only [ringNumber] at heq
        omega
      | lower => rfl
  · intro i
    rw [hsize]
    constructor
    · rintro ⟨v, hv, rfl⟩
      rw [mem_cornersOf_ringFaces] at hv
      cases v with
      | upper => exact Or.inl rfl
      | ring k j =>
        have := hplace hv
        simp only [ringNumber]
        omega
      | lower => exact Or.inr (Or.inl rfl)
    · rintro (rfl | rfl | ⟨hge, hlt⟩)
      · exact ⟨upper, mem_cornersOf_ringFaces.2 (by simp), rfl⟩
      · exact ⟨lower, mem_cornersOf_ringFaces.2 (by simp), rfl⟩
      · obtain ⟨k, hk, j, hj⟩ := exists_ring_position (n := n) (m := rings) (i := i - first)
          (by omega)
        refine ⟨ring k j, mem_cornersOf_ringFaces.2 ?_, ?_⟩
        · rintro l - ⟨rfl, -⟩
          omega
        · simp only [ringNumber, hj]
          omega

end Numbered

/-! ### Spheres -/

section Spheres

variable {n : Nat}

theorem ringIndex_place (k : Nat) (i : Fin n) : ringIndex n k i = 1 + (k * n + i) := by
  rw [ringIndex, Nat.mod_eq_of_lt i.isLt, Nat.add_assoc]

theorem ringIndex_next [NeZero n] (k : Nat) (i : Fin n) :
    ringIndex n k (i + 1) = 1 + (k * n + (i + 1 : Fin n)) := by
  rw [ringIndex, val_add_one, Nat.add_assoc]

theorem sphereTriangles_eq (n : Nat) [NeZero n] :
    sphereTriangles n =
      ((ringFaces n (n - 2)).map (Face.map (ringNumber n 1 0 (1 + (n - 1) * n)))).map
        Triangle.ofFace := by
  simp only [sphereTriangles, ringFaces, ringCells, map_range_eq_map_finRange,
    flatMap_range_eq_flatMap_finRange (n := n), List.map_append, List.map_map, List.map_flatMap]
  simp [Function.comp_def, Cell.face, Face.map, ringNumber, Triangle.ofFace, Triangle.ofQuad,
    ringIndex_place, ringIndex_next]

theorem length_sphereVertices (radius : Float) (n : Nat) :
    (sphereVertices radius n).length = 1 + (n - 1) * n + 1 := by
  simp [sphereVertices, sphereRing]
  omega

theorem isSurface_sphere (center : Vec3) (radius : Float) (hn : 3 ≤ n)
    (hsize : 1 + (n - 1) * n + 1 ≤ 2 ^ 32) : (sphere center radius n).IsSurface := by
  have : NeZero n := ⟨by omega⟩
  have hsurface : Surface (1 + (n - 1) * n + 1)
      ((ringFaces n (n - 2)).map (Face.map (ringNumber n 1 0 (1 + (n - 1) * n)))) :=
    surface_rings hn (show n - 2 + 1 = n - 1 by omega) (by omega) (by omega) (by omega)
      (fun i => by omega)
  refine isSurface_around center ?_
  rw [length_sphereVertices, sphereTriangles_eq]
  exact surface_of_perm hsurface hsize (List.Perm.refl _)

end Spheres

/-! ### Cylinders -/

section Cylinders

variable {n : Nat}

/-- The cells of two rings, gathered place by place. -/
theorem ringCells_one_perm (n : Nat) :
    (ringCells n 1).Perm ((List.finRange n).flatMap fun i =>
      [aboveDiagonal 0 i, belowDiagonal 0 i, upperFan i, lowerFan i]) := by
  have hfans : (ringCells n 1).Perm
      ((List.finRange n).flatMap (fun i => [upperFan i, aboveDiagonal 0 i, belowDiagonal 0 i]) ++
        (List.finRange n).flatMap fun i => [lowerFan i]) := by
    rw [ringCells, List.range_one, List.flatMap_singleton, List.map_eq_flatMap (f := lowerFan)]
    exact (List.map_append_flatMap_perm _ _ _).append_right _
  refine (hfans.trans (List.flatMap_append_perm _ _ _)).trans (List.Perm.flatMap_left _ ?_)
  intro i _
  exact List.perm_append_comm_assoc [upperFan i] [aboveDiagonal 0 i, belowDiagonal 0 i] [lowerFan i]

theorem length_cylinderVertices (radius half : Float) (n : Nat) :
    (cylinderVertices radius half n).length = 2 * n + 2 := by
  simp [cylinderVertices, cylinderRing]
  omega

theorem cylinderTriangles_eq (n : Nat) [NeZero n] :
    cylinderTriangles n =
      ((List.finRange n).flatMap fun i =>
        [aboveDiagonal 0 i, belowDiagonal 0 i, upperFan i, lowerFan i]).map fun cell =>
          Triangle.ofFace ((cell.face 1).map (ringNumber n 0 (2 * n) (2 * n + 1))) := by
  rw [cylinderTriangles, flatMap_range_eq_flatMap_finRange, List.map_flatMap]
  simp [Cell.face, Face.map, ringNumber, Triangle.ofFace, Triangle.ofQuad, val_add_one]

theorem isSurface_cylinder (center : Vec3) (radius height : Float) (hn : 3 ≤ n)
    (hsize : 2 * n + 2 ≤ 2 ^ 32) : (cylinder center radius height n).IsSurface := by
  have : NeZero n := ⟨by omega⟩
  have hsurface : Surface (2 * n + 2)
      ((ringFaces n 1).map (Face.map (ringNumber n 0 (2 * n) (2 * n + 1)))) :=
    surface_rings hn (show 1 + 1 = 2 from rfl) (by omega) (by omega) (by omega)
      (fun i => by omega)
  refine isSurface_around center ?_
  rw [length_cylinderVertices]
  refine surface_of_perm hsurface hsize ?_
  rw [cylinderTriangles_eq, ringFaces, List.map_map, List.map_map]
  exact (ringCells_one_perm n).map _

end Cylinders

end Mesh

/-! ### Shapes and scenes -/

theorem three_le_divisions (segments : UInt32) : 3 ≤ divisions segments := Nat.le_max_right _ _

/-- The mesh of a shape is a surface when its indices fit in 32 bits. -/
theorem Shape.isSurface_mesh (segments : UInt32) (s : Shape)
    (hsize : (s.mesh segments).vertices.size ≤ 2 ^ 32) : (s.mesh segments).IsSurface := by
  have hn := three_le_divisions segments
  unfold Shape.mesh at hsize ⊢
  generalize s.dimensions = dimensions at hsize ⊢
  cases dimensions with
  | box edge => exact Mesh.isSurface_around s.position Mesh.surface_box
  | sphere radius =>
    refine Mesh.isSurface_sphere s.position radius hn ?_
    simpa [Mesh.sphere, Mesh.around, Mesh.length_sphereVertices] using hsize
  | cylinder radius height =>
    refine Mesh.isSurface_cylinder s.position radius height hn ?_
    simpa [Mesh.cylinder, Mesh.around, Mesh.length_cylinderVertices] using hsize

namespace Mesh

/-- A mesh with the meshes of some shapes appended. -/
def withShapes (segments : UInt32) (m : Mesh) (shapes : List Shape) : Mesh :=
  shapes.foldl (fun m s => m ++ s.mesh segments) m

theorem withShapes_cons (segments : UInt32) (m : Mesh) (s : Shape) (rest : List Shape) :
    withShapes segments m (s :: rest) = withShapes segments (m ++ s.mesh segments) rest := rfl

theorem size_le_size_withShapes (segments : UInt32) (m : Mesh) (shapes : List Shape) :
    m.vertices.size ≤ (withShapes segments m shapes).vertices.size := by
  induction shapes generalizing m with
  | nil => exact le_rfl
  | cons s rest ih =>
    rw [withShapes_cons]
    refine le_trans ?_ (ih (m ++ s.mesh segments))
    rw [vertices_append, Array.size_append]
    exact Nat.le_add_right _ _

theorem isSurface_withShapes {segments : UInt32} {m : Mesh} (hm : m.IsSurface)
    (shapes : List Shape) (hsize : (withShapes segments m shapes).vertices.size ≤ 2 ^ 32) :
    (withShapes segments m shapes).IsSurface := by
  induction shapes generalizing m with
  | nil => exact hm
  | cons s rest ih =>
    rw [withShapes_cons] at hsize ⊢
    -- The vertices of the parts are counted among those of the whole.
    have hparts : m.vertices.size + (s.mesh segments).vertices.size ≤ 2 ^ 32 := by
      have hle := size_le_size_withShapes segments (m ++ s.mesh segments) rest
      rw [vertices_append, Array.size_append] at hle
      omega
    have hs := s.isSurface_mesh segments (by omega)
    exact ih (hm.append hs hparts) hsize

/-- **The mesh of a scene is closed and consistently wound.**  As long as its vertices can be
numbered in 32 bits, every triangle of the mesh of some shapes has three corners, all of them
vertices of the mesh, every vertex is the corner of a triangle, and each directed edge of a triangle
occurs in that triangle alone and is run through the other way by exactly one. -/
theorem watertight_ofShapes (segments : UInt32) (shapes : List Shape)
    (hsize : (ofShapes segments shapes).vertices.size ≤ 2 ^ 32) :
    (ofShapes segments shapes).Watertight :=
  watertight_of_surface (isSurface_withShapes isSurface_empty shapes hsize)

/-- One shape of each kind. -/
def assortment : List Shape := Kind.all.map fun kind => .atOrigin ⟨kind, 2.0⟩

theorem watertight_ofShapes_assortment :
    (ofShapes 3 assortment).vertices.size ≤ 2 ^ 32 ∧ (ofShapes 3 assortment).Watertight := by
  have hsize : (ofShapes 3 assortment).vertices.size ≤ 2 ^ 32 := by decide +kernel
  exact ⟨hsize, watertight_ofShapes 3 assortment hsize⟩

end Mesh

end SolidScene
