import SolidScene.Proofs.Report.Inspection
import SolidScene.Tessellation

/-!
# A mesh lies within the extents of its scene

Each vertex of a shape is its place plus an offset, and no offset is longer along any axis than the
half extent of the shape (`isWithin_offsets`): a radius is multiplied by sines and cosines, which
are at most one, and rounding does not make it longer.  Adding the offset to the place keeps the
order.  So the box around the mesh of a scene is covered by the extents that inspection reports.

Along the vertical axis every shape reaches both ends of its box, with a pole or a rim, and a box
does so along every axis (`Shape.Touches`).  There the mesh and the extents agree
(`extents_cover_ofShapes`).
-/

namespace SolidScene

open Double

/-! ### Sines and cosines -/

/-- Whether the sine and the cosine of each finite angle are between minus one and one. -/
structure Trigonometry.IsBounded [Trigonometry] : Prop where
  sin_mem : ∀ x : Float, x.isFinite → -1.0 ≤ sin x ∧ sin x ≤ 1.0
  cos_mem : ∀ x : Float, x.isFinite → -1.0 ≤ cos x ∧ cos x ≤ 1.0

/-- Whether a double is between another one and its negation. -/
def IsWithin (h x : Float) : Prop := -h ≤ x ∧ x ≤ h

instance (h x : Float) : Decidable (IsWithin h x) := inferInstanceAs (Decidable (-h ≤ x ∧ x ≤ h))

section Within

variable {h x t : Float}

theorem isWithin_self (hh : 0.0 ≤ h) : IsWithin h h :=
  ⟨float_neg_le_self hh, float_le_refl (isNumber_of_le hh).2⟩

theorem isWithin_neg (hh : 0.0 ≤ h) : IsWithin h (-h) :=
  ⟨float_le_refl (isNumber_of_le (float_neg_le_self hh)).1, float_neg_le_self hh⟩

theorem isWithin_iff (hh : h.isFinite) (hx : x.isFinite) : IsWithin h x ↔ |value x| ≤ value h := by
  obtain ⟨hneg, hvalue⟩ := neg_spec hh
  rw [IsWithin, le_iff hneg hx, le_iff hx hh, hvalue, abs_le]

theorem IsWithin.isFinite (hx : IsWithin h x) (hh : h.isFinite) : x.isFinite :=
  isFinite_of_le_of_le (neg_spec hh).1 hh hx.1 hx.2

theorem isWithin_zero (hh : h.isFinite) (hnonneg : 0.0 ≤ h) : IsWithin h 0.0 := by
  rw [isWithin_iff hh isFinite_zero, value_zero, abs_zero]
  exact (zero_le_iff hh).1 hnonneg

/-- A factor of at most one makes a length no longer. -/
theorem IsWithin.mul (hx : IsWithin h x) (hh : h.isFinite) (ht : IsWithin 1.0 t) :
    IsWithin h (x * t) := by
  have hxfinite := hx.isFinite hh
  have htfinite := ht.isFinite one_spec.1
  rw [isWithin_iff hh hxfinite] at hx
  rw [isWithin_iff one_spec.1 htfinite, one_spec.2] at ht
  have hhvalue : |value h| = value h := abs_of_nonneg ((abs_nonneg _).trans hx)
  have hproduct : |value x * value t| ≤ |value h| := by
    rw [abs_mul, hhvalue]
    exact (mul_le_of_le_one_right (abs_nonneg _) ht).trans hx
  obtain ⟨hfinite, hle⟩ := mul_spec_of_abs_le hxfinite htfinite hh hproduct
  rw [isWithin_iff hh hfinite, ← hhvalue]
  exact hle

end Within

/-- The bit that chooses the side of a corner of a box along an axis. -/
def Axis.bit : Axis → ℕ
  | x => 0
  | y => 1
  | z => 2

namespace Mesh

open Trigonometry (sin cos)

/-! ### Angles -/

theorem divisions_le (segments : UInt32) : divisions segments ≤ 2 ^ 32 := by
  have := segments.toNat_lt
  rw [divisions]
  omega

/-- The angles of rings are finite. -/
theorem isFinite_part {angle : Float} (hangle : IsBounded 3 angle) {i n : ℕ} (hi : i ≤ n)
    (hn : n ≤ 2 ^ 32) (hpos : 0 < n) : (part angle i n).isFinite := by
  obtain ⟨hifinite, hivalue⟩ := float_ofNat_spec (m := i) (by omega)
  obtain ⟨hnfinite, hnvalue⟩ := float_ofNat_spec (m := n) (by omega)
  have hindex : IsBounded 53 (Float.ofNat i) := by
    refine ⟨hifinite, hivalue ▸ Nat.cast_nonneg i, ?_⟩
    rw [hivalue]
    exact_mod_cast (by omega : i ≤ 2 ^ 53)
  exact (hangle.mul hindex (by norm_num)).isFinite_div hnfinite
    (by rw [hnvalue]; exact_mod_cast hpos)

theorem isBounded_halfTurn : IsBounded 3 halfTurn := isBounded_of_ofFloat? (by decide)

theorem isBounded_fullTurn : IsBounded 3 fullTurn := isBounded_of_ofFloat? (by decide)

/-! ### Rings -/

section Rings

variable [Trigonometry] {radius height : Float} {n : ℕ} {p : Vec3}

variable (hbounded : Trigonometry.IsBounded) (hradius : radius.isFinite) (hnonneg : 0.0 ≤ radius)
  (hn : n ≤ 2 ^ 32)

include hbounded hradius hnonneg hn

theorem isWithin_sphereRing {i : ℕ} (hi : i ≤ n) (hp : p ∈ sphereRing radius n i) (a : Axis) :
    IsWithin radius (p.coord a) := by
  obtain ⟨j, hj, rfl⟩ := List.mem_map.1 hp
  rw [List.mem_range] at hj
  have htheta := isFinite_part isBounded_halfTurn hi hn (by omega)
  have hphi := isFinite_part isBounded_fullTurn hj.le hn (by omega)
  have hself := isWithin_self hnonneg
  have hring := hself.mul hradius (hbounded.sin_mem _ htheta)
  cases a with
  | x => exact hring.mul hradius (hbounded.cos_mem _ hphi)
  | y => exact hself.mul hradius (hbounded.cos_mem _ htheta)
  | z => exact hring.mul hradius (hbounded.sin_mem _ hphi)

theorem isWithin_sphereVertices (hp : p ∈ sphereVertices radius n) (a : Axis) :
    IsWithin radius (p.coord a) := by
  have hzero := isWithin_zero hradius hnonneg
  rw [sphereVertices, List.mem_append, List.mem_append, List.mem_singleton, List.mem_singleton,
    List.mem_flatMap] at hp
  obtain (rfl | ⟨i, hi, hp⟩) | rfl := hp
  · cases a with
    | y => exact isWithin_self hnonneg
    | _ => exact hzero
  · rw [List.mem_range] at hi
    exact isWithin_sphereRing hbounded hradius hnonneg hn (by omega) hp a
  · cases a with
    | y => exact isWithin_neg hnonneg
    | _ => exact hzero

theorem isWithin_cylinderRing {half : Float} (hheight : IsWithin half height)
    (hp : p ∈ cylinderRing radius height n) (a : Axis) :
    IsWithin ((⟨radius, half, radius⟩ : Vec3).coord a) (p.coord a) := by
  obtain ⟨j, hj, rfl⟩ := List.mem_map.1 hp
  rw [List.mem_range] at hj
  have hphi := isFinite_part isBounded_fullTurn hj.le hn (by omega)
  have hself := isWithin_self hnonneg
  cases a with
  | x => exact hself.mul hradius (hbounded.cos_mem _ hphi)
  | y => exact hheight
  | z => exact hself.mul hradius (hbounded.sin_mem _ hphi)

theorem isWithin_cylinderVertices {half : Float} (hhalf : 0.0 ≤ half)
    (hp : p ∈ cylinderVertices radius half n) (a : Axis) :
    IsWithin ((⟨radius, half, radius⟩ : Vec3).coord a) (p.coord a) := by
  have hzero := isWithin_zero hradius hnonneg
  rw [cylinderVertices, List.mem_append, List.mem_append, List.mem_pair] at hp
  obtain (hp | hp) | (rfl | rfl) := hp
  · exact isWithin_cylinderRing hbounded hradius hnonneg hn (isWithin_self hhalf) hp a
  · exact isWithin_cylinderRing hbounded hradius hnonneg hn (isWithin_neg hhalf) hp a
  · cases a with
    | y => exact isWithin_self hhalf
    | _ => exact hzero
  · cases a with
    | y => exact isWithin_neg hhalf
    | _ => exact hzero

end Rings

theorem coord_boxCorner (half : Float) (i : ℕ) (a : Axis) :
    (boxCorner half i).coord a = if i.testBit a.bit then half else -half := by
  cases a <;> rfl

end Mesh

/-! ### Offsets -/

namespace Shape

section Offsets

variable [Trigonometry] {s : Shape}

/-- The vertices of a shape relative to its place. -/
def offsets (segments : UInt32) (s : Shape) : List Vec3 :=
  match s.dimensions with
  | .box edge => (List.range 8).map (Mesh.boxCorner (edge * 0.5))
  | .sphere radius => Mesh.sphereVertices radius (divisions segments)
  | .cylinder radius height => Mesh.cylinderVertices radius (height * 0.5) (divisions segments)

theorem vertices_mesh (segments : UInt32) (s : Shape) :
    (s.mesh segments).vertices.toList = (s.offsets segments).map (s.position + ·) := by
  rw [mesh, offsets]
  cases s.dimensions <;> rfl

omit [Trigonometry] in
/-- The radius of a solid is finite. -/
theorem isFinite_radius {factor scale : Float} (hfactor : IsWithin 1.0 factor)
    (h : Solid.validScale scale) : (factor * scale).isFinite := by
  obtain ⟨hscale, -⟩ := validScale_iff.1 h
  have hfinite := hfactor.isFinite one_spec.1
  rw [isWithin_iff one_spec.1 hfinite, one_spec.2] at hfactor
  refine (mul_spec_of_abs_le hfinite hscale hscale ?_).1
  rw [abs_mul]
  exact mul_le_of_le_one_left (abs_nonneg _) hfactor

/-- No offset is longer along any axis than the half extent of its shape. -/
theorem isWithin_offsets (hbounded : Trigonometry.IsBounded) (h : s.IsFinite) {segments : UInt32}
    {p : Vec3} (hp : p ∈ s.offsets segments) (a : Axis) :
    IsWithin (s.dimensions.halfExtents.coord a) (p.coord a) := by
  have hn := Mesh.divisions_le segments
  have hnonneg := Solid.halfExtents_nonneg h.scale
  obtain ⟨⟨kind, scale⟩, position, color⟩ := s
  cases kind with
  | box =>
    obtain ⟨i, -, rfl⟩ := List.mem_map.1 hp
    have hhalf : (Dimensions.halfExtents (.box scale)).coord a = scale * 0.5 := by cases a <;> rfl
    have hcorner := hhalf ▸ hnonneg a
    change IsWithin ((Dimensions.halfExtents (.box scale)).coord a) _
    rw [hhalf]
    rw [Mesh.coord_boxCorner]
    split
    · exact isWithin_self hcorner
    · exact isWithin_neg hcorner
  | sphere =>
    have hradius : (sphereRadiusFactor * scale).isFinite := isFinite_radius (by decide) h.scale
    have hwithin := Mesh.isWithin_sphereVertices hbounded hradius (hnonneg .x) hn hp a
    cases a <;> exact hwithin
  | cylinder =>
    have hradius : (cylinderRadiusFactor * scale).isFinite :=
      isFinite_radius (by decide) h.scale
    exact Mesh.isWithin_cylinderVertices hbounded hradius (hnonneg .x) hn (hnonneg .y) hp a

/-! ### Where a shape reaches the ends of its box -/

/-- Whether some vertex of a shape lies at the lower end of its box along an axis, and some vertex
at the upper end. -/
def Touches (segments : UInt32) (s : Shape) (a : Axis) : Prop :=
  (∃ p ∈ s.offsets segments, p.coord a = -s.dimensions.halfExtents.coord a) ∧
    ∃ p ∈ s.offsets segments, p.coord a = s.dimensions.halfExtents.coord a

/-- A box touches its ends along every axis, with its first corner and its last one. -/
theorem touches_of_box (segments : UInt32) (hs : s.kind = .box) (a : Axis) :
    s.Touches segments a := by
  obtain ⟨⟨kind, scale⟩, position, color⟩ := s
  change kind = .box at hs
  subst hs
  refine ⟨⟨_, List.mem_map_of_mem (List.mem_range.2 (show 0 < 8 by norm_num)), ?_⟩,
    ⟨_, List.mem_map_of_mem (List.mem_range.2 (show 7 < 8 by norm_num)), ?_⟩⟩
  · cases a <;> rfl
  · cases a <;> rfl

/-- Every shape touches its ends along the vertical axis: a sphere with its poles, a cylinder with
the centres of its ends. -/
theorem touches_y (segments : UInt32) (s : Shape) : s.Touches segments .y := by
  obtain ⟨⟨kind, scale⟩, position, color⟩ := s
  cases kind with
  | box => exact touches_of_box segments rfl .y
  | sphere =>
    exact ⟨⟨⟨0.0, -(sphereRadiusFactor * scale), 0.0⟩,
        List.mem_append_right _ (List.mem_singleton_self _), rfl⟩,
      ⟨⟨0.0, sphereRadiusFactor * scale, 0.0⟩,
        List.mem_append_left _ (List.mem_append_left _ (List.mem_singleton_self _)), rfl⟩⟩
  | cylinder =>
    exact ⟨⟨⟨0.0, -(cylinderHeightFactor * scale * 0.5), 0.0⟩,
        List.mem_append_right _ (.tail _ (.head _)), rfl⟩,
      ⟨⟨0.0, cylinderHeightFactor * scale * 0.5, 0.0⟩, List.mem_append_right _ (.head _), rfl⟩⟩

/-! ### Vertices -/

/-- The vertices of a shape lie within its box. -/
theorem covers_vertex (hbounded : Trigonometry.IsBounded) (h : s.IsFinite) {segments : UInt32}
    {v : Vec3} (hv : v ∈ (s.mesh segments).vertices) : s.bounds.Covers (.point v) := by
  rw [← Array.mem_toList_iff, vertices_mesh] at hv
  obtain ⟨p, hp, rfl⟩ := List.mem_map.1 hv
  intro a
  obtain ⟨hlow, hhigh⟩ := isWithin_offsets hbounded h hp a
  change (s.position - s.dimensions.halfExtents).coord a ≤ (s.position + p).coord a ∧
    (s.position + p).coord a ≤ (s.position + s.dimensions.halfExtents).coord a
  rw [Vec3.coord_sub, Vec3.coord_add, Vec3.coord_add, float_sub_eq_add_neg]
  exact ⟨float_add_le_add_left (h.position a) hlow, float_add_le_add_left (h.position a) hhigh⟩

theorem Touches.exists_vertex {segments : UInt32} {a : Axis} (h : s.Touches segments a) :
    (∃ v ∈ (s.mesh segments).vertices, v.coord a = s.bounds.min.coord a) ∧
      ∃ v ∈ (s.mesh segments).vertices, v.coord a = s.bounds.max.coord a := by
  have hvertex {p : Vec3} (hp : p ∈ s.offsets segments) :
      s.position + p ∈ (s.mesh segments).vertices := by
    rw [← Array.mem_toList_iff, vertices_mesh]
    exact List.mem_map_of_mem hp
  obtain ⟨⟨p, hp, hlow⟩, ⟨q, hq, hhigh⟩⟩ := h
  refine ⟨⟨_, hvertex hp, ?_⟩, ⟨_, hvertex hq, ?_⟩⟩
  · change _ = (s.position - s.dimensions.halfExtents).coord a
    rw [Vec3.coord_add, Vec3.coord_sub, hlow, float_sub_eq_add_neg]
  · change _ = (s.position + s.dimensions.halfExtents).coord a
    rw [Vec3.coord_add, Vec3.coord_add, hhigh]

end Offsets

end Shape

/-! ### Scenes -/

namespace Mesh

theorem bounds_eq (m : Mesh) : m.bounds = m.vertices.toList.foldl .includePoint .empty := by
  rw [bounds, Array.foldl_toList]

section Scene

variable [Trigonometry]

/-- The vertices of a scene are those of its shapes. -/
theorem vertices_ofShapes (segments : UInt32) (shapes : List Shape) :
    (ofShapes segments shapes).vertices.toList =
      shapes.flatMap fun s => (s.mesh segments).vertices.toList := by
  have hfold (m : Mesh) : (shapes.foldl (fun m s => m ++ s.mesh segments) m).vertices.toList =
      m.vertices.toList ++ shapes.flatMap fun s => (s.mesh segments).vertices.toList := by
    induction shapes generalizing m with
    | nil => exact (List.append_nil _).symm
    | cons s shapes ih =>
      rw [List.foldl_cons, ih, vertices_append, Array.toList_append, List.append_assoc,
        List.flatMap_cons]
  exact hfold empty

variable {shapes : List Shape}

/-- The box around the mesh of a scene is the least one around its vertices. -/
theorem isLeastAround_bounds (hbounded : Trigonometry.IsBounded) (segments : UInt32)
    (hshapes : shapes ≠ []) (h : ∀ s ∈ shapes, s.IsFinite) :
    (ofShapes segments shapes).bounds.IsLeastAround
      ((ofShapes segments shapes).vertices.toList.map .point) := by
  rw [bounds_eq]
  refine Bounds.isLeastAround_foldl_includePoint ?_ fun v hv => ?_
  · obtain ⟨s, hs⟩ := List.exists_mem_of_ne_nil shapes hshapes
    obtain ⟨⟨v, hv, -⟩, -⟩ := (Shape.touches_y segments s).exists_vertex
    rw [vertices_ofShapes]
    exact List.ne_nil_of_mem (List.mem_flatMap.2 ⟨s, hs, Array.mem_toList_iff.2 hv⟩)
  · rw [vertices_ofShapes] at hv
    obtain ⟨s, hs, hv⟩ := List.mem_flatMap.1 hv
    exact fun a => (isNumber_of_le
      (Shape.covers_vertex hbounded (h s hs) (Array.mem_toList_iff.1 hv) a).1).2

/-- The extents of a scene cover its mesh. -/
theorem covers_bounds (hbounded : Trigonometry.IsBounded) (segments : UInt32)
    (hshapes : shapes ≠ []) (h : ∀ s ∈ shapes, s.IsFinite) :
    (Report.extentsOf shapes).Covers (ofShapes segments shapes).bounds := by
  refine (isLeastAround_bounds hbounded segments hshapes h).least _ ?_
  refine List.forall_mem_map.2 fun v hv => ?_
  rw [vertices_ofShapes] at hv
  obtain ⟨s, hs, hv⟩ := List.mem_flatMap.1 hv
  exact ((Report.isLeastAround_extentsOf hshapes h).covers _ (List.mem_map_of_mem hs)).trans
    (Shape.covers_vertex hbounded (h s hs) (Array.mem_toList_iff.1 hv))

/-- Along an axis on which every shape touches the ends of its box, the mesh of a scene reaches as
far as the extents. -/
theorem beq_of_touches (hbounded : Trigonometry.IsBounded) (segments : UInt32)
    (hshapes : shapes ≠ []) (h : ∀ s ∈ shapes, s.IsFinite) {a : Axis}
    (htouches : ∀ s ∈ shapes, s.Touches segments a) :
    (Report.extentsOf shapes).min.coord a == (ofShapes segments shapes).bounds.min.coord a ∧
      (Report.extentsOf shapes).max.coord a == (ofShapes segments shapes).bounds.max.coord a := by
  have hextents := Report.isLeastAround_extentsOf hshapes h
  have hbounds := isLeastAround_bounds hbounded segments hshapes h
  have hcovers := covers_bounds hbounded segments hshapes h a
  have hvertex {s : Shape} (hs : s ∈ shapes) {v : Vec3} (hv : v ∈ (s.mesh segments).vertices) :
      (ofShapes segments shapes).bounds.Covers (.point v) := by
    refine hbounds.covers _ (List.mem_map_of_mem ?_)
    rw [vertices_ofShapes]
    exact List.mem_flatMap.2 ⟨s, hs, Array.mem_toList_iff.2 hv⟩
  constructor
  · obtain ⟨c, hc, hmin⟩ := hextents.min_attained a
    obtain ⟨s, hs, rfl⟩ := List.mem_map.1 hc
    obtain ⟨⟨v, hv, hva⟩, -⟩ := (htouches s hs).exists_vertex
    have hle := (hvertex hs hv a).1
    rw [show (Bounds.point v).min.coord a = s.bounds.min.coord a from hva] at hle
    exact float_beq_of_le_of_le hcovers.1 (float_le_trans hle (float_le_of_beq hmin).2)
  · obtain ⟨c, hc, hmax⟩ := hextents.max_attained a
    obtain ⟨s, hs, rfl⟩ := List.mem_map.1 hc
    obtain ⟨-, v, hv, hva⟩ := (htouches s hs).exists_vertex
    have hle := (hvertex hs hv a).2
    rw [show (Bounds.point v).max.coord a = s.bounds.max.coord a from hva] at hle
    exact float_beq_of_le_of_le (float_le_trans (float_le_of_beq hmax).1 hle) hcovers.2

/-- **The mesh of a scene lies within the extents that inspection reports**, whatever the number of
segments.  On the vertical axis it reaches as far as the extents, and where all shapes are boxes it
does so on every axis. -/
theorem extents_cover_ofShapes (hbounded : Trigonometry.IsBounded) (segments : UInt32)
    (parameters : Parameters) (hshapes : shapes ≠ []) (h : ∀ s ∈ shapes, s.IsFinite) :
    ∃ extents, (Report.inspect shapes parameters).extents = some extents ∧
      let box := (ofShapes segments shapes).bounds
      box.IsProper ∧ extents.Covers box ∧
        (extents.min.y == box.min.y ∧ extents.max.y == box.max.y) ∧
        ((∀ s ∈ shapes, s.kind = .box) → extents.Same box) :=
  ⟨Report.extentsOf shapes, Report.extents_inspect parameters hshapes,
    (isLeastAround_bounds hbounded segments hshapes h).proper,
    covers_bounds hbounded segments hshapes h,
    beq_of_touches (a := .y) hbounded segments hshapes h fun s _ => s.touches_y segments,
    fun hbox _ => beq_of_touches hbounded segments hshapes h fun s hs =>
      Shape.touches_of_box segments (hbox s hs) _⟩

end Scene

/-- Sine and cosine at the angles of rings with three divisions, as the machine has them; zero at
other angles. -/
@[reducible]
def threeDivisions : Trigonometry where
  sin x :=
    if x == 1.0471975511965976 then 0.8660254037844386
    else if x == 2.0943951023931953 then 0.8660254037844387
    else if x == 4.1887902047863905 then -0.8660254037844384
    else 0.0
  cos x :=
    if x == 0.0 then 1.0
    else if x == 1.0471975511965976 then 0.5000000000000001
    else if x == 2.0943951023931953 then -0.4999999999999998
    else if x == 4.1887902047863905 then -0.5000000000000004
    else 0.0

example : [part halfTurn 1 3, part halfTurn 2 3, part fullTurn 0 3, part fullTurn 1 3,
    part fullTurn 2 3] = [1.0471975511965976, 2.0943951023931953, 0.0, 2.0943951023931953,
      4.1887902047863905] := by decide +kernel

theorem isBounded_threeDivisions : @Trigonometry.IsBounded threeDivisions := by
  refine @Trigonometry.IsBounded.mk threeDivisions (fun x _ => ?_) (fun x _ => ?_)
  · unfold threeDivisions
    dsimp only
    split_ifs <;> decide
  · unfold threeDivisions
    dsimp only
    split_ifs <;> decide

theorem extents_cover_ofShapes_extremeShapes :
    @Trigonometry.IsBounded threeDivisions ∧ Report.extremeShapes ≠ [] ∧
      (∀ s ∈ Report.extremeShapes, s.IsFinite) ∧
      ∃ extents, (Report.inspect Report.extremeShapes .default).extents = some extents ∧
        let box := (@ofShapes threeDivisions 3 Report.extremeShapes).bounds
        box.IsProper ∧ extents.Covers box ∧
          (extents.min.y == box.min.y ∧ extents.max.y == box.max.y) ∧
          ((∀ s ∈ Report.extremeShapes, s.kind = .box) → extents.Same box) :=
  have hshapes : Report.extremeShapes ≠ [] := List.cons_ne_nil _ _
  have hfinite : ∀ s ∈ Report.extremeShapes, s.IsFinite := by decide +kernel
  ⟨isBounded_threeDivisions, hshapes, hfinite,
    @extents_cover_ofShapes threeDivisions _ isBounded_threeDivisions 3 .default hshapes hfinite⟩

end Mesh

end SolidScene
