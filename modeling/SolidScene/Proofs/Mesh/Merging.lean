import Mathlib.Algebra.Order.BigOperators.Group.List
import Mathlib.Algebra.Order.Group.Nat
import SolidScene.Proofs.Mesh.Watertight
import SolidScene.Stl.Facet

/-!
# Merging meshes changes no facet

A mesh is *in range* when its triangles name none but its own vertices.  To append one such mesh to
another moves its indices up by the number of vertices that come before, and as long as all vertices
can be numbered in 32 bits each triangle keeps its corners (`corner_append_left`,
`corner_append_right`).

* The facets of two meshes in one are those of the first and then those of the second
  (`facets_append`), and how meshes are grouped does not matter (`append_assoc`).
* `facets_merged` follows any number of meshes, and with them the mesh of a scene.
-/

namespace SolidScene

namespace Mesh

/-- Whether the triangles of a mesh name none but its own vertices. -/
def InRange (m : Mesh) : Prop :=
  ∀ t ∈ m.triangles, t.a.toNat < m.vertices.size ∧ t.b.toNat < m.vertices.size ∧
    t.c.toNat < m.vertices.size

instance : DecidablePred InRange := fun m =>
  inferInstanceAs (Decidable (∀ t ∈ m.triangles, t.a.toNat < m.vertices.size ∧
    t.b.toNat < m.vertices.size ∧ t.c.toNat < m.vertices.size))

theorem inRange_empty : empty.InRange := by decide

/-- The mesh of a shape is in range when its indices fit in 32 bits. -/
theorem inRange_mesh (segments : UInt32) (s : Shape)
    (hsize : (s.mesh segments).vertices.size ≤ 2 ^ 32) : (s.mesh segments).InRange :=
  (watertight_of_surface (s.isSurface_mesh segments hsize)).inRange

/-! ### Two meshes in one -/

section Append

variable {m n : Mesh}

theorem shift_shift (t : Triangle) (i j : UInt32) : (t.shift i).shift j = t.shift (i + j) := by
  simp only [Triangle.shift, UInt32.add_assoc]

/-- **Appending is associative**, also where indices run over. -/
theorem append_assoc (a b c : Mesh) : a ++ b ++ c = a ++ (b ++ c) := by
  have hvertices : (a ++ b ++ c).vertices = (a ++ (b ++ c)).vertices := by
    simp only [vertices_append, Array.append_assoc]
  have hoffset : (a.vertices.size + b.vertices.size).toUInt32 =
      b.vertices.size.toUInt32 + a.vertices.size.toUInt32 := by
    rw [Nat.add_comm]
    exact UInt32.ofNat_add _ _
  have htriangles : (a ++ b ++ c).triangles = (a ++ (b ++ c)).triangles := by
    simp only [triangles_append, vertices_append, Array.size_append, Array.append_assoc,
      Array.map_append, Array.map_map, Function.comp_def, shift_shift, hoffset]
  exact congrArg₂ Mesh.mk hvertices htriangles

theorem corner_append_left {i : UInt32} (h : i.toNat < m.vertices.size) :
    (m ++ n).corner i = m.corner i := by
  rw [corner, corner, Array.getD_eq_getD_getElem?, Array.getD_eq_getD_getElem?, vertices_append,
    Array.getElem?_append_left h]

theorem corner_append_right {i : UInt32} (h : i.toNat < n.vertices.size)
    (hsize : m.vertices.size + n.vertices.size ≤ 2 ^ 32) :
    (m ++ n).corner (i + m.vertices.size.toUInt32) = n.corner i := by
  rw [corner, corner, Triangle.toNat_add_offset (by omega), Array.getD_eq_getD_getElem?,
    Array.getD_eq_getD_getElem?, vertices_append,
    Array.getElem?_append_right (Nat.le_add_right _ _), Nat.add_sub_cancel_left]

theorem InRange.append (hm : m.InRange) (hn : n.InRange)
    (hsize : m.vertices.size + n.vertices.size ≤ 2 ^ 32) : (m ++ n).InRange := by
  intro t ht
  rw [triangles_append, Array.mem_append, Array.mem_map] at ht
  rw [vertices_append, Array.size_append]
  rcases ht with ht | ⟨t, ht, rfl⟩
  · have := hm t ht
    omega
  · obtain ⟨ha, hb, hc⟩ := hn t ht
    have hmoved {i : UInt32} (hi : i.toNat < n.vertices.size) :
        (i + m.vertices.size.toUInt32).toNat < m.vertices.size + n.vertices.size := by
      rw [Triangle.toNat_add_offset (by omega)]
      exact Nat.add_lt_add_left hi _
    exact ⟨hmoved ha, hmoved hb, hmoved hc⟩

end Append

end Mesh

namespace Stl

open Mesh

section Append

variable {m n : Mesh}

/-- **The facets of two meshes in one** are those of the first and then those of the second. -/
theorem facets_append (hm : m.InRange) (hn : n.InRange)
    (hsize : m.vertices.size + n.vertices.size ≤ 2 ^ 32) :
    facets (m ++ n) = facets m ++ facets n := by
  have hfirst : ∀ t ∈ m.triangles.toList, facet (m ++ n) t = facet m t := fun t ht => by
    obtain ⟨ha, hb, hc⟩ := hm t (Array.mem_toList_iff.1 ht)
    rw [facet, facet, corner_append_left ha, corner_append_left hb, corner_append_left hc]
  have hsecond : ∀ t ∈ n.triangles.toList,
      facet (m ++ n) (t.shift m.vertices.size.toUInt32) = facet n t := fun t ht => by
    obtain ⟨ha, hb, hc⟩ := hn t (Array.mem_toList_iff.1 ht)
    rw [facet, facet, Triangle.shift, corner_append_right ha hsize, corner_append_right hb hsize,
      corner_append_right hc hsize]
  rw [facets, triangles_append, Array.toList_append, Array.toList_map, List.map_append,
    List.map_map, List.map_congr_left hfirst]
  exact congrArg (facets m ++ ·) (List.map_congr_left hsecond)

end Append

/-! ### Any number of meshes -/

section Merging

variable {m : Mesh} {parts : List Mesh}

/-- What is appended to a mesh in range comes after its facets, part by part. -/
theorem facets_foldl_append (hm : m.InRange) (hparts : ∀ n ∈ parts, n.InRange)
    (hsize : m.vertices.size + (parts.map (·.vertices.size)).sum ≤ 2 ^ 32) :
    (parts.foldl (· ++ ·) m).InRange ∧
      facets (parts.foldl (· ++ ·) m) = facets m ++ parts.flatMap facets := by
  induction parts generalizing m with
  | nil => exact ⟨hm, (List.append_nil _).symm⟩
  | cons n rest ih =>
    obtain ⟨hn, hrest⟩ := List.forall_mem_cons.1 hparts
    rw [List.map_cons, List.sum_cons] at hsize
    have htwo : m.vertices.size + n.vertices.size ≤ 2 ^ 32 := by omega
    have hboth : (m ++ n).vertices.size = m.vertices.size + n.vertices.size := by
      rw [vertices_append, Array.size_append]
    obtain ⟨hrange, hfacets⟩ := ih (hm.append hn htwo) hrest (by omega)
    refine ⟨hrange, ?_⟩
    rw [List.foldl_cons, hfacets, facets_append hm hn htwo, List.flatMap_cons, List.append_assoc]

theorem facets_ofShapes {segments : UInt32} {shapes : List Shape}
    (hsize : (shapes.map fun s => (s.mesh segments).vertices.size).sum ≤ 2 ^ 32) :
    facets (ofShapes segments shapes) = shapes.flatMap fun s => facets (s.mesh segments) := by
  have hparts : ∀ n ∈ shapes.map (Shape.mesh segments), n.InRange := by
    rw [List.forall_mem_map]
    intro s hs
    refine inRange_mesh segments s (le_trans ?_ hsize)
    exact List.le_sum_of_mem (List.mem_map_of_mem hs)
  have hmerged := (facets_foldl_append (m := .empty) inRange_empty hparts (by
    rw [List.map_map]
    exact (Nat.zero_add _).trans_le hsize)).2
  rwa [List.foldl_map, List.flatMap_map] at hmerged

/-- **Merging meshes changes no geometry.**  When meshes in range are appended in turn to the mesh
without vertices, and all their vertices can be numbered in 32 bits, what comes out is in range and
its facets are those of the parts, one part after another; how they are grouped does not matter.  So
the facets of the mesh of a scene are those of its shapes, each for itself, in list order. -/
theorem facets_merged (hparts : ∀ n ∈ parts, n.InRange)
    (hsize : (parts.map (·.vertices.size)).sum ≤ 2 ^ 32) :
    ((parts.foldl (· ++ ·) Mesh.empty).InRange ∧
      facets (parts.foldl (· ++ ·) Mesh.empty) = parts.flatMap facets) ∧
    (∀ a b c : Mesh, a ++ b ++ c = a ++ (b ++ c)) ∧
    ∀ (segments : UInt32) (shapes : List Shape),
      (shapes.map fun s => (s.mesh segments).vertices.size).sum ≤ 2 ^ 32 →
        facets (ofShapes segments shapes) = shapes.flatMap fun s => facets (s.mesh segments) := by
  refine ⟨?_, append_assoc, fun _ _ => facets_ofShapes⟩
  have hmerged := facets_foldl_append (m := .empty) inRange_empty hparts
    ((Nat.zero_add _).trans_le hsize)
  exact hmerged

/-- A sphere, a mesh without vertices, a cylinder and a box; and a scene of one shape of each
kind. -/
theorem facets_merged_fourParts :
    let parts := [(Shape.atOrigin ⟨.sphere, 1.0⟩).mesh 3, .empty,
      (Shape.atOrigin ⟨.cylinder, 2.0⟩).mesh 4, (Shape.atOrigin ⟨.box, 0.5⟩).mesh 0]
    (((∀ n ∈ parts, n.InRange) ∧ (parts.map (·.vertices.size)).sum ≤ 2 ^ 32) ∧
      (parts.foldl (· ++ ·) Mesh.empty).InRange ∧
        facets (parts.foldl (· ++ ·) Mesh.empty) = parts.flatMap facets) ∧
    (assortment.map fun s => (s.mesh 5).vertices.size).sum ≤ 2 ^ 32 ∧
      facets (ofShapes 5 assortment) = assortment.flatMap fun s => facets (s.mesh 5) := by
  intro parts
  have hparts : ∀ n ∈ parts, n.InRange := by decide +kernel
  have hsize : (parts.map (·.vertices.size)).sum ≤ 2 ^ 32 := by decide +kernel
  have hscene : (assortment.map fun s => (s.mesh 5).vertices.size).sum ≤ 2 ^ 32 := by
    decide +kernel
  obtain ⟨hmerged, -, hshapes⟩ := facets_merged hparts hsize
  exact ⟨⟨⟨hparts, hsize⟩, hmerged⟩, hscene, hshapes 5 assortment hscene⟩

end Merging

end Stl

end SolidScene
