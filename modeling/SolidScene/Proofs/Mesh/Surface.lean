import Mathlib.Algebra.Group.Nat.Defs
import Mathlib.Data.List.Nodup
import Mathlib.Data.List.Perm.Basic
import SolidScene.Mesh

/-!
# Surfaces without a border

A `Face` is a triangle between vertices of any type.  Faces are *closed* when no directed edge
occurs twice and the reverse of each occurs, so that along every edge exactly two faces meet, with
the same side outside.

* Closed faces stay closed when they are put in another order, when their vertices are renamed
  without merging any, and when faces on other vertices are put beside them.
* A `Surface` has for its vertices the natural numbers below a size.  Surfaces are put in one by
  moving the vertices of the second up by the size of the first (`Surface.append`).
* A mesh is watertight when its triangles are a surface on its vertices (`watertight_of_surface`),
  and meshes may be appended as long as their indices fit in 32 bits.
-/

namespace SolidScene

/-- A triangle between vertices of any type, the corners in winding order. -/
structure Face (α : Type) where
  a : α
  b : α
  c : α
  deriving DecidableEq

namespace Face

variable {α β : Type}

/-- The vertices of a face. -/
def corners (f : Face α) : List α := [f.a, f.b, f.c]

/-- The edges of a face, each in the direction in which the face goes round. -/
def edges (f : Face α) : List (α × α) := [(f.a, f.b), (f.b, f.c), (f.c, f.a)]

/-- A face with other names for its vertices. -/
def map (g : α → β) (f : Face α) : Face β := ⟨g f.a, g f.b, g f.c⟩

theorem corners_map (g : α → β) (f : Face α) : (f.map g).corners = f.corners.map g := rfl

theorem edges_map (g : α → β) (f : Face α) :
    (f.map g).edges = f.edges.map (Prod.map g g) := rfl

theorem mem_corners_of_mem_edges {f : Face α} {e : α × α} (h : e ∈ f.edges) :
    e.1 ∈ f.corners ∧ e.2 ∈ f.corners := by
  simp only [edges, List.mem_cons, List.not_mem_nil, or_false] at h
  rcases h with rfl | rfl | rfl <;> simp [corners]

end Face

/-! ### Closed faces -/

section Closed

variable {α β ι : Type}

/-- The directed edges of some faces. -/
def edgesOf (fs : List (Face α)) : List (α × α) := fs.flatMap Face.edges

/-- The vertices of some faces, each as often as it is a corner. -/
def cornersOf (fs : List (Face α)) : List α := fs.flatMap Face.corners

/-- Faces of which no two have a directed edge in common, each edge being run through in both
directions. -/
structure Closed (fs : List (Face α)) : Prop where
  proper : ∀ e ∈ edgesOf fs, e.1 ≠ e.2
  nodup : (edgesOf fs).Nodup
  twin : ∀ e ∈ edgesOf fs, e.swap ∈ edgesOf fs

@[simp] theorem edgesOf_append (fs gs : List (Face α)) :
    edgesOf (fs ++ gs) = edgesOf fs ++ edgesOf gs := List.flatMap_append

@[simp] theorem cornersOf_append (fs gs : List (Face α)) :
    cornersOf (fs ++ gs) = cornersOf fs ++ cornersOf gs := List.flatMap_append

theorem edgesOf_map (g : α → β) (fs : List (Face α)) :
    edgesOf (fs.map (Face.map g)) = (edgesOf fs).map (Prod.map g g) := by
  simp [edgesOf, List.flatMap_map, List.map_flatMap, Face.edges_map]

theorem cornersOf_map (g : α → β) (fs : List (Face α)) :
    cornersOf (fs.map (Face.map g)) = (cornersOf fs).map g := by
  simp [cornersOf, List.flatMap_map, List.map_flatMap, Face.corners_map]

theorem mem_cornersOf_of_mem_edgesOf {fs : List (Face α)} {e : α × α} (h : e ∈ edgesOf fs) :
    e.1 ∈ cornersOf fs ∧ e.2 ∈ cornersOf fs := by
  obtain ⟨f, hf, he⟩ := List.mem_flatMap.1 h
  obtain ⟨hfst, hsnd⟩ := Face.mem_corners_of_mem_edges he
  exact ⟨List.mem_flatMap.2 ⟨f, hf, hfst⟩, List.mem_flatMap.2 ⟨f, hf, hsnd⟩⟩

/-- No edge occurs twice when every edge tells the face that it belongs to. -/
theorem nodup_edgesOf_map {cells : List ι} (hcells : cells.Nodup) {face : ι → Face α}
    (cellOf : α × α → ι) (hcell : ∀ c ∈ cells, ∀ e ∈ (face c).edges, cellOf e = c)
    (hedges : ∀ c ∈ cells, (face c).edges.Nodup) : (edgesOf (cells.map face)).Nodup := by
  rw [edgesOf, List.flatMap_map, List.nodup_flatMap]
  refine ⟨hedges, hcells.imp_of_mem fun {c d} hc hd hne => ?_⟩
  intro e he he'
  exact hne ((hcell c hc e he).symm.trans (hcell d hd e he'))

theorem Closed.perm {fs gs : List (Face α)} (h : Closed fs) (hperm : fs.Perm gs) : Closed gs := by
  have hedges : (edgesOf fs).Perm (edgesOf gs) := hperm.flatMap_right _
  constructor
  · intro e he
    exact h.proper e (hedges.mem_iff.2 he)
  · exact hedges.nodup_iff.1 h.nodup
  · intro e he
    exact hedges.mem_iff.1 (h.twin e (hedges.mem_iff.2 he))

theorem Closed.map {fs : List (Face α)} (h : Closed fs) {g : α → β}
    (hg : ∀ v ∈ cornersOf fs, ∀ w ∈ cornersOf fs, g v = g w → v = w) :
    Closed (fs.map (Face.map g)) := by
  constructor
  · intro e he
    rw [edgesOf_map] at he
    obtain ⟨d, hd, rfl⟩ := List.mem_map.1 he
    obtain ⟨hfst, hsnd⟩ := mem_cornersOf_of_mem_edgesOf hd
    exact fun heq => h.proper d hd (hg _ hfst _ hsnd heq)
  · rw [edgesOf_map]
    refine h.nodup.map_on fun d hd e he heq => ?_
    obtain ⟨hdfst, hdsnd⟩ := mem_cornersOf_of_mem_edgesOf hd
    obtain ⟨hefst, hesnd⟩ := mem_cornersOf_of_mem_edgesOf he
    obtain ⟨hfst, hsnd⟩ := Prod.mk.inj heq
    exact Prod.ext (hg _ hdfst _ hefst hfst) (hg _ hdsnd _ hesnd hsnd)
  · intro e he
    rw [edgesOf_map] at he ⊢
    obtain ⟨d, hd, rfl⟩ := List.mem_map.1 he
    exact List.mem_map.2 ⟨d.swap, h.twin d hd, rfl⟩

theorem Closed.append {fs gs : List (Face α)} (hf : Closed fs) (hg : Closed gs)
    (hapart : ∀ v ∈ cornersOf fs, v ∉ cornersOf gs) : Closed (fs ++ gs) := by
  constructor
  · intro e he
    rw [edgesOf_append, List.mem_append] at he
    exact he.elim (hf.proper e) (hg.proper e)
  · rw [edgesOf_append, List.nodup_append']
    refine ⟨hf.nodup, hg.nodup, fun e he he' => ?_⟩
    exact hapart _ (mem_cornersOf_of_mem_edgesOf he).1 (mem_cornersOf_of_mem_edgesOf he').1
  · intro e he
    rw [edgesOf_append, List.mem_append] at he ⊢
    exact he.imp (hf.twin e) (hg.twin e)

/-- A directed edge of faces that have none twice belongs to exactly one of them. -/
theorem countP_mem_edges [DecidableEq α] {fs : List (Face α)} (h : (edgesOf fs).Nodup) {e : α × α}
    (he : e ∈ edgesOf fs) : fs.countP (fun f => e ∈ f.edges) = 1 := by
  induction fs with
  | nil => cases he
  | cons f fs ih =>
    rw [edgesOf, List.flatMap_cons, List.nodup_append'] at h
    obtain ⟨-, hrest, hdisjoint⟩ := h
    by_cases hf : e ∈ f.edges
    · have hnone : fs.countP (fun f => e ∈ f.edges) = 0 := by
        rw [List.countP_eq_zero]
        intro g hg heg
        exact hdisjoint hf (List.mem_flatMap.2 ⟨g, hg, of_decide_eq_true heg⟩)
      simp [hf, hnone]
    · have hmem : e ∈ edgesOf fs := by
        rw [edgesOf, List.flatMap_cons, List.mem_append] at he
        exact he.resolve_left hf
      simp [hf, ih hrest hmem]

end Closed

/-! ### Surfaces on numbered vertices -/

/-- Closed faces whose vertices are the numbers below a size. -/
structure Surface (size : Nat) (fs : List (Face Nat)) : Prop extends Closed fs where
  mem_cornersOf_iff : ∀ i, i ∈ cornersOf fs ↔ i < size

section Surface

variable {m n : Nat} {fs gs : List (Face Nat)}

theorem surface_nil : Surface 0 [] where
  proper := by intro e he; cases he
  nodup := List.nodup_nil
  twin := by intro e he; cases he
  mem_cornersOf_iff := by intro i; simp [cornersOf]

theorem Surface.perm (h : Surface n fs) (hperm : fs.Perm gs) : Surface n gs where
  toClosed := h.toClosed.perm hperm
  mem_cornersOf_iff := by
    intro i
    rw [← h.mem_cornersOf_iff, cornersOf, cornersOf]
    exact (hperm.flatMap_right _).mem_iff.symm

/-- Closed faces are a surface once their vertices are numbered. -/
theorem Closed.surface {α : Type} {fs : List (Face α)} (h : Closed fs) {number : α → Nat}
    (hinj : ∀ v ∈ cornersOf fs, ∀ w ∈ cornersOf fs, number v = number w → v = w)
    (hrange : ∀ i, (∃ v ∈ cornersOf fs, number v = i) ↔ i < n) :
    Surface n (fs.map (Face.map number)) where
  toClosed := h.map hinj
  mem_cornersOf_iff := by
    intro i
    rw [cornersOf_map, List.mem_map]
    exact hrange i

theorem Surface.append (hf : Surface m fs) (hg : Surface n gs) :
    Surface (m + n) (fs ++ gs.map (Face.map (m + ·))) := by
  have hmem : ∀ i, i ∈ cornersOf (gs.map (Face.map (m + ·))) ↔ m ≤ i ∧ i < m + n := by
    intro i
    rw [cornersOf_map, List.mem_map]
    constructor
    · rintro ⟨j, hj, rfl⟩
      have := (hg.mem_cornersOf_iff j).1 hj
      omega
    · intro hi
      exact ⟨i - m, (hg.mem_cornersOf_iff _).2 (by omega), by omega⟩
  have hmoved : Closed (gs.map (Face.map (m + ·))) :=
    hg.toClosed.map fun i _ j _ heq => Nat.add_left_cancel heq
  constructor
  · refine hf.toClosed.append hmoved fun i hi hi' => ?_
    have hlt := (hf.mem_cornersOf_iff i).1 hi
    have hle := ((hmem i).1 hi').1
    omega
  · intro i
    rw [cornersOf_append, List.mem_append, hf.mem_cornersOf_iff, hmem]
    omega

end Surface

/-! ### Watertight meshes -/

namespace Triangle

/-- The directed edges of a triangle. -/
def edges (t : Triangle) : List (UInt32 × UInt32) := [(t.a, t.b), (t.b, t.c), (t.c, t.a)]

/-- The indices of a triangle as natural numbers. -/
def face (t : Triangle) : Face Nat := ⟨t.a.toNat, t.b.toNat, t.c.toNat⟩

/-- The triangle of a face. -/
def ofFace (f : Face Nat) : Triangle := ofNats f.a f.b f.c

theorem face_ofFace {f : Face Nat} (h : ∀ i ∈ f.corners, i < 2 ^ 32) : (ofFace f).face = f := by
  have ha : f.a < 4294967296 := h f.a (by simp [Face.corners])
  have hb : f.b < 4294967296 := h f.b (by simp [Face.corners])
  have hc : f.c < 4294967296 := h f.c (by simp [Face.corners])
  simp [ofFace, ofNats, face, Nat.mod_eq_of_lt ha, Nat.mod_eq_of_lt hb, Nat.mod_eq_of_lt hc]

theorem mem_edges_iff {t : Triangle} {e : UInt32 × UInt32} :
    e ∈ t.edges ↔ (e.1.toNat, e.2.toNat) ∈ t.face.edges := by
  simp [edges, face, Face.edges, Prod.ext_iff, UInt32.toNat_inj]

/-- An index that fits in 32 bits when it is moved up is moved up as a number. -/
theorem toNat_add_offset {i : UInt32} {offset : Nat} (h : offset + i.toNat < 2 ^ 32) :
    (i + offset.toUInt32).toNat = offset + i.toNat := by
  have hoffset : offset % 2 ^ 32 = offset := Nat.mod_eq_of_lt (by omega)
  rw [UInt32.toNat_add, Nat.toUInt32_eq, UInt32.toNat_ofNat', hoffset, Nat.add_comm,
    Nat.mod_eq_of_lt h]

/-- Indices that fit in 32 bits when they are moved up are moved up as numbers. -/
theorem face_shift {t : Triangle} {offset : Nat}
    (h : ∀ i ∈ t.face.corners, offset + i < 2 ^ 32) :
    (t.shift offset.toUInt32).face = t.face.map (offset + ·) := by
  have ha := toNat_add_offset (h t.a.toNat (by simp [face, Face.corners]))
  have hb := toNat_add_offset (h t.b.toNat (by simp [face, Face.corners]))
  have hc := toNat_add_offset (h t.c.toNat (by simp [face, Face.corners]))
  simp only [face, shift, Face.map, ha, hb, hc]

end Triangle

namespace Mesh

/-- The triangles of a mesh as faces between numbers. -/
def faces (m : Mesh) : List (Face Nat) := m.triangles.toList.map Triangle.face

/-- A mesh whose triangles are a surface on its vertices. -/
def IsSurface (m : Mesh) : Prop := Surface m.vertices.size m.faces

/-- A mesh that is closed and consistently wound: triangles have three corners, all of them
vertices, every vertex is a corner, and each directed edge of a triangle belongs to that triangle
alone and its reverse to exactly one triangle. -/
structure Watertight (m : Mesh) : Prop where
  distinct : ∀ t ∈ m.triangles, t.a ≠ t.b ∧ t.b ≠ t.c ∧ t.c ≠ t.a
  inRange : ∀ t ∈ m.triangles, t.a.toNat < m.vertices.size ∧ t.b.toNat < m.vertices.size ∧
    t.c.toNat < m.vertices.size
  used : ∀ i < m.vertices.size, ∃ t ∈ m.triangles, i = t.a.toNat ∨ i = t.b.toNat ∨ i = t.c.toNat
  paired : ∀ t ∈ m.triangles, ∀ e ∈ t.edges,
    m.triangles.countP (fun t => e ∈ t.edges) = 1 ∧
      m.triangles.countP (fun t => e.swap ∈ t.edges) = 1

theorem countP_mem_triangle_edges {m : Mesh} (h : m.IsSurface) {e : UInt32 × UInt32}
    (he : (e.1.toNat, e.2.toNat) ∈ edgesOf m.faces) :
    m.triangles.countP (fun t => e ∈ t.edges) = 1 := by
  have hcount := countP_mem_edges h.nodup he
  rw [faces, List.countP_map] at hcount
  simp only [Function.comp_def, ← Triangle.mem_edges_iff] at hcount
  rwa [← Array.countP_toList]

theorem watertight_of_surface {m : Mesh} (h : m.IsSurface) : m.Watertight := by
  have hface : ∀ t ∈ m.triangles, t.face ∈ m.faces := fun t ht =>
    List.mem_map_of_mem (Array.mem_toList_iff.2 ht)
  have hedge : ∀ t ∈ m.triangles, ∀ e ∈ t.edges, (e.1.toNat, e.2.toNat) ∈ edgesOf m.faces :=
    fun t ht e he => List.mem_flatMap.2 ⟨t.face, hface t ht, Triangle.mem_edges_iff.1 he⟩
  have hcorner : ∀ t ∈ m.triangles, ∀ i ∈ t.face.corners, i < m.vertices.size :=
    fun t ht i hi => (h.mem_cornersOf_iff i).1 (List.mem_flatMap.2 ⟨t.face, hface t ht, hi⟩)
  constructor
  · intro t ht
    have hproper : ∀ e ∈ t.edges, e.1 ≠ e.2 := fun e he heq =>
      h.proper _ (hedge t ht e he) (congrArg UInt32.toNat heq)
    simpa [Triangle.edges] using hproper
  · intro t ht
    simpa [Triangle.face, Face.corners] using hcorner t ht
  · intro i hi
    obtain ⟨f, hf, hif⟩ := List.mem_flatMap.1 ((h.mem_cornersOf_iff i).2 hi)
    obtain ⟨t, ht, rfl⟩ := List.mem_map.1 hf
    refine ⟨t, Array.mem_toList_iff.1 ht, ?_⟩
    simpa [Triangle.face, Face.corners] using hif
  · intro t ht e he
    have hmem := hedge t ht e he
    exact ⟨countP_mem_triangle_edges h hmem, countP_mem_triangle_edges h (h.twin _ hmem)⟩

theorem isSurface_empty : empty.IsSurface := surface_nil

/-- A mesh around a centre is a surface when its triangles are one. -/
theorem isSurface_around (center : Vec3) {offsets : List Vec3} {triangles : List Triangle}
    (h : Surface offsets.length (triangles.map Triangle.face)) :
    (around center offsets triangles).IsSurface := by
  simpa [IsSurface, faces, around] using h

/-- A surface whose indices fit in 32 bits is that of its faces as triangles, in any order. -/
theorem surface_of_perm {size : Nat} {fs : List (Face Nat)} {triangles : List Triangle}
    (h : Surface size fs) (hsize : size ≤ 2 ^ 32)
    (hperm : (fs.map Triangle.ofFace).Perm triangles) :
    Surface size (triangles.map Triangle.face) := by
  have hface : ∀ f ∈ fs, (Triangle.ofFace f).face = f := by
    intro f hf
    refine Triangle.face_ofFace fun i hi => ?_
    have hlt := (h.mem_cornersOf_iff i).1 (List.mem_flatMap.2 ⟨f, hf, hi⟩)
    omega
  have hfaces : (fs.map Triangle.ofFace).map Triangle.face = fs := by
    rw [List.map_map]
    exact (List.map_congr_left hface).trans (List.map_id fs)
  refine Surface.perm ?_ (hperm.map Triangle.face)
  rwa [hfaces]

theorem IsSurface.append {m n : Mesh} (hm : m.IsSurface) (hn : n.IsSurface)
    (hsize : m.vertices.size + n.vertices.size ≤ 2 ^ 32) : (m ++ n).IsSurface := by
  have hshift : (n.triangles.toList.map (Triangle.shift m.vertices.size.toUInt32)).map
      Triangle.face = n.faces.map (Face.map (m.vertices.size + ·)) := by
    rw [faces, List.map_map, List.map_map]
    refine List.map_congr_left fun t ht => Triangle.face_shift fun i hi => ?_
    have hlt := (hn.mem_cornersOf_iff i).1
      (List.mem_flatMap.2 ⟨t.face, List.mem_map_of_mem ht, hi⟩)
    omega
  have happend := Surface.append hm hn
  rw [← hshift] at happend
  simpa [IsSurface, faces] using happend

end Mesh

end SolidScene
