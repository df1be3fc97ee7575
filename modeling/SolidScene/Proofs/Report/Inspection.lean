import SolidScene.Proofs.Double.Error
import SolidScene.Proofs.Geometry.Bounds
import SolidScene.Report

/-!
# What inspection finds out

A report on shapes with finite places and valid scales is exact (`Report.IsExact`): each kind is
counted, the extents are the least box around the boxes of all shapes, and each warning is given
exactly when there is something to warn of, with the number of shapes it is about.  Shapes in
another order give the same report, but for the sign of zeros in the extents (`Report.Same`).

The box of a shape is proper even where its height overflows, since half of the height is a number
from zero on and adding to a finite place keeps the order (`Shape.IsFinite.isProper_bounds`).
-/

namespace SolidScene

open Double

/-! ### Shapes with finite places -/

/-- A shape with a finite place and a valid scale. -/
structure Shape.IsFinite (s : Shape) : Prop where
  position : ∀ i, (s.position.coord i).isFinite
  scale : Solid.validScale s.scale

instance : DecidablePred Shape.IsFinite := fun s =>
  decidable_of_iff ((∀ i, (s.position.coord i).isFinite) ∧ Solid.validScale s.scale)
    ⟨fun h => ⟨h.1, h.2⟩, fun h => ⟨h.1, h.2⟩⟩

section Scale

variable {scale : Float}

theorem zero_le_of_validScale (h : Solid.validScale scale) : 0.0 ≤ scale :=
  (zero_le_iff (validScale_iff.1 h).1).2 (validScale_iff.1 h).2.le

theorem float_mul_half_nonneg {x : Float} (hx : 0.0 ≤ x) : 0.0 ≤ x * 0.5 :=
  float_mul_nonneg hx (by decide) ((zero_lt_iff (by decide)).1 (by decide))

/-- A solid reaches at least as far as its centre along each axis. -/
theorem Solid.halfExtents_nonneg {s : Solid} (h : validScale s.scale) (i : Axis) :
    0.0 ≤ s.dimensions.halfExtents.coord i := by
  obtain ⟨hfinite, hpositive⟩ := validScale_iff.1 h
  have hmul {factor : Float} (hfactor : 0.0 ≤ factor) : 0.0 ≤ factor * s.scale :=
    float_mul_nonneg hfactor hfinite hpositive
  obtain ⟨kind, scale⟩ := s
  cases kind with
  | box =>
    have hhalf : 0.0 ≤ scale * 0.5 := float_mul_half_nonneg (zero_le_of_validScale h)
    cases i <;> exact hhalf
  | sphere =>
    have hradius : 0.0 ≤ sphereRadiusFactor * scale := hmul (by decide)
    cases i <;> exact hradius
  | cylinder =>
    have hradius : 0.0 ≤ cylinderRadiusFactor * scale := hmul (by decide)
    have hheight : 0.0 ≤ cylinderHeightFactor * scale := hmul (by decide)
    cases i with
    | y => exact float_mul_half_nonneg hheight
    | _ => exact hradius

end Scale

namespace Shape.IsFinite

variable {s : Shape}

/-- The corners of the box that a shape fills are in order. -/
theorem isProper_bounds (h : s.IsFinite) : s.bounds.IsProper := fun i => by
  change (s.position - s.dimensions.halfExtents).coord i ≤
    (s.position + s.dimensions.halfExtents).coord i
  rw [Vec3.coord_sub, Vec3.coord_add, float_sub_eq_add_neg]
  exact float_add_le_add_left (h.position i)
    (float_neg_le_self (Solid.halfExtents_nonneg h.scale i))

end Shape.IsFinite

/-! ### Points off the origin -/

/-- Whether a point is off the origin along some axis. -/
def Vec3.OffOrigin (p : Vec3) : Prop := ∃ i, value (p.coord i) ≠ 0

instance : DecidablePred Vec3.OffOrigin := fun p =>
  inferInstanceAs (Decidable (∃ i, value (p.coord i) ≠ 0))

theorem Vec3.isOrigin_iff {p : Vec3} (hp : ∀ i, (p.coord i).isFinite) :
    p.isOrigin = true ↔ ¬ p.OffOrigin := by
  have hzero i : (p.coord i == 0.0) = true ↔ value (p.coord i) = 0 := beq_iff (hp i) isFinite_zero
  rw [OffOrigin, not_exists, isOrigin, Bool.and_eq_true, Bool.and_eq_true]
  constructor
  · rintro ⟨⟨hx, hy⟩, hz⟩ i
    rw [not_not]
    cases i with
    | x => exact (hzero .x).1 hx
    | y => exact (hzero .y).1 hy
    | z => exact (hzero .z).1 hz
  · intro h
    have hall i := (hzero i).2 (not_not.1 (h i))
    exact ⟨⟨hall .x, hall .y⟩, hall .z⟩

namespace Report

/-! ### Exact reports -/

/-- Whether a report says of some shapes what there is to say of them. -/
structure IsExact (report : Report) (shapes : List Shape) : Prop where
  shapeCount_eq : report.shapeCount = shapes.length
  counts_eq : ∀ k, report.counts.get k = shapes.countP (·.kind = k)
  sum_counts : report.counts.boxes + report.counts.spheres + report.counts.cylinders =
    report.shapeCount
  extents_eq_none_iff : report.extents = none ↔ shapes = []
  isLeastAround_extents : ∀ b ∈ report.extents, b.IsLeastAround (shapes.map Shape.bounds)
  emptyScene_iff : report.hasWarning "empty_scene" ↔ shapes = []
  position_iff : report.hasWarning "position_not_encoded" ↔ ∃ s ∈ shapes, s.position.OffOrigin
  color_iff : report.hasWarning "color_not_encoded" ↔
    ∃ s ∈ shapes, s.displayColor ≠ s.kind.defaultColor
  position_message : ∀ w ∈ report.warnings, w.code = "position_not_encoded" →
    w.message = toString (shapes.countP (·.position.OffOrigin)) ++
      " shape(s) are placed off the origin; " ++
      "script text does not encode placement and parsing resets it."
  color_message : ∀ w ∈ report.warnings, w.code = "color_not_encoded" →
    w.message = toString (shapes.countP fun s => s.displayColor ≠ s.kind.defaultColor) ++
      " shape(s) use a non-default colour; parsing reassigns kind defaults."

/-- Whether two reports say the same, but for the sign of zeros in the extents. -/
structure Same (report other : Report) : Prop where
  parameters_eq : report.parameters = other.parameters
  shapeCount_eq : report.shapeCount = other.shapeCount
  counts_eq : report.counts = other.counts
  warnings_eq : report.warnings = other.warnings
  extents_same : Option.Rel Bounds.Same report.extents other.extents

section Inspection

variable {shapes : List Shape}

/-! ### Counts and extents -/

theorem sum_countP_kind (shapes : List Shape) :
    shapes.countP (·.kind = .box) + shapes.countP (·.kind = .sphere) +
      shapes.countP (·.kind = .cylinder) = shapes.length := by
  induction shapes with
  | nil => rfl
  | cons s shapes ih =>
    rw [List.countP_cons, List.countP_cons, List.countP_cons, List.length_cons]
    cases s.kind <;> simp <;> omega

theorem get_counts (shapes : List Shape) (k : Kind) :
    (KindCounts.ofKinds (shapes.map (·.kind))).get k = shapes.countP (·.kind = k) := by
  rw [KindCounts.get_ofKinds, List.count, List.countP_map]
  rfl

theorem extentsOf_eq (shapes : List Shape) :
    extentsOf shapes = (shapes.map Shape.bounds).foldl .union .empty := by
  rw [extentsOf, List.foldl_map]

theorem isLeastAround_extentsOf (hshapes : shapes ≠ []) (h : ∀ s ∈ shapes, s.IsFinite) :
    (extentsOf shapes).IsLeastAround (shapes.map Shape.bounds) := by
  rw [extentsOf_eq]
  refine Bounds.isLeastAround_foldl_union (mt List.map_eq_nil_iff.1 hshapes) ?_
  rw [List.forall_mem_map]
  exact fun s hs => (h s hs).isProper_bounds

theorem extents_inspect (parameters : Parameters) (hshapes : shapes ≠ []) :
    (inspect shapes parameters).extents = some (extentsOf shapes) := by
  rw [inspect, if_neg (by rwa [List.isEmpty_iff])]

/-! ### Warnings -/

theorem placedCount_eq (h : ∀ s ∈ shapes, s.IsFinite) :
    placedCount shapes = shapes.countP (·.position.OffOrigin) := by
  refine List.countP_congr fun s hs => ?_
  rw [Bool.not_eq_true', ← Bool.not_eq_true, Vec3.isOrigin_iff (h s hs).position, not_not,
    decide_eq_true_iff]

theorem recoloredCount_eq (shapes : List Shape) :
    recoloredCount shapes = shapes.countP fun s => s.displayColor ≠ s.kind.defaultColor := by
  refine List.countP_congr fun s _ => ?_
  rw [Shape.hasDefaultColor, Bool.not_eq_true', beq_eq_false_iff_ne, decide_eq_true_iff]

theorem mem_warningsFor_iff {w : Warning} : w ∈ warningsFor shapes ↔
    w = .emptyScene ∧ shapes = [] ∨
      w = .positionNotEncoded (placedCount shapes) ∧ 0 < placedCount shapes ∨
      w = .colorNotEncoded (recoloredCount shapes) ∧ 0 < recoloredCount shapes := by
  have hmem (p : Prop) [Decidable p] (v : Warning) : w ∈ (if p then [v] else []) ↔ w = v ∧ p := by
    split
    · next h => rw [List.mem_singleton, and_iff_left h]
    · next h => exact ⟨fun hw => absurd hw List.not_mem_nil, fun hw => absurd hw.2 h⟩
  rw [warningsFor, List.mem_append, List.mem_append, hmem, hmem, hmem, List.isEmpty_iff, or_assoc]

/-- The warnings that there may be about some shapes. -/
def possibleWarnings (shapes : List Shape) : List Warning :=
  [.emptyScene, .positionNotEncoded (placedCount shapes), .colorNotEncoded (recoloredCount shapes)]

/-- A warning that is given is told by its name. -/
theorem eq_of_code_eq {w v : Warning} (hw : w ∈ warningsFor shapes)
    (hv : v ∈ possibleWarnings shapes) (hcode : w.code = v.code) : w = v := by
  have hw : w ∈ possibleWarnings shapes := by
    obtain ⟨rfl, -⟩ | ⟨rfl, -⟩ | ⟨rfl, -⟩ := mem_warningsFor_iff.1 hw <;> simp [possibleWarnings]
  have hnodup : ((possibleWarnings shapes).map Warning.code).Nodup := by
    change ["empty_scene", "position_not_encoded", "color_not_encoded"].Nodup
    decide
  exact List.inj_on_of_nodup_map hnodup hw hv hcode

theorem hasWarning_code_iff {v : Warning} (parameters : Parameters)
    (hv : v ∈ possibleWarnings shapes) :
    (inspect shapes parameters).hasWarning v.code = true ↔ v ∈ warningsFor shapes := by
  simp only [hasWarning, List.any_eq_true, beq_iff_eq]
  constructor
  · rintro ⟨w, hw, hcode⟩
    exact eq_of_code_eq hw hv hcode ▸ hw
  · exact fun hmem => ⟨v, hmem, rfl⟩

theorem emptyScene_mem_iff : Warning.emptyScene ∈ warningsFor shapes ↔ shapes = [] := by
  simp [mem_warningsFor_iff]

theorem positionNotEncoded_mem_iff (h : ∀ s ∈ shapes, s.IsFinite) :
    Warning.positionNotEncoded (placedCount shapes) ∈ warningsFor shapes ↔
      ∃ s ∈ shapes, s.position.OffOrigin := by
  simp only [mem_warningsFor_iff, reduceCtorEq, false_and, false_or, or_false, true_and]
  rw [placedCount_eq h, List.countP_pos_iff]
  simp only [decide_eq_true_iff]

theorem colorNotEncoded_mem_iff :
    Warning.colorNotEncoded (recoloredCount shapes) ∈ warningsFor shapes ↔
      ∃ s ∈ shapes, s.displayColor ≠ s.kind.defaultColor := by
  simp only [mem_warningsFor_iff, reduceCtorEq, false_and, false_or, true_and]
  rw [recoloredCount_eq, List.countP_pos_iff]
  simp only [decide_eq_true_iff]

/-! ### The report -/

theorem isExact_inspect (h : ∀ s ∈ shapes, s.IsFinite) (parameters : Parameters) :
    (inspect shapes parameters).IsExact shapes where
  shapeCount_eq := rfl
  counts_eq := get_counts shapes
  sum_counts := by
    have hcounts := get_counts shapes
    exact (congrArg₂ (· + ·) (congrArg₂ (· + ·) (hcounts .box) (hcounts .sphere))
      (hcounts .cylinder)).trans (sum_countP_kind shapes)
  extents_eq_none_iff := by
    rw [inspect]
    simp
  isLeastAround_extents b hb := by
    have hshapes : shapes ≠ [] := by
      rintro rfl
      cases hb
    rw [extents_inspect parameters hshapes, Option.mem_some_iff] at hb
    exact hb ▸ isLeastAround_extentsOf hshapes h
  emptyScene_iff :=
    (hasWarning_code_iff parameters (by simp [possibleWarnings])).trans emptyScene_mem_iff
  position_iff :=
    (hasWarning_code_iff (v := .positionNotEncoded (placedCount shapes)) parameters
      (by simp [possibleWarnings])).trans (positionNotEncoded_mem_iff h)
  color_iff :=
    (hasWarning_code_iff (v := .colorNotEncoded (recoloredCount shapes)) parameters
      (by simp [possibleWarnings])).trans colorNotEncoded_mem_iff
  position_message w hw hcode := by
    rw [eq_of_code_eq (v := .positionNotEncoded (placedCount shapes)) hw
      (by simp [possibleWarnings]) hcode, placedCount_eq h]
    rfl
  color_message w hw hcode := by
    rw [eq_of_code_eq (v := .colorNotEncoded (recoloredCount shapes)) hw
      (by simp [possibleWarnings]) hcode, recoloredCount_eq]
    rfl

/-- Shapes in another order give the same report. -/
theorem same_inspect_of_perm {reordered : List Shape} (hperm : reordered.Perm shapes)
    (h : ∀ s ∈ shapes, s.IsFinite) (parameters : Parameters) :
    (inspect reordered parameters).Same (inspect shapes parameters) where
  parameters_eq := rfl
  shapeCount_eq := hperm.length_eq
  counts_eq := by
    have hkinds := hperm.map (·.kind)
    simp only [inspect, KindCounts.ofKinds, hkinds.count_eq]
  warnings_eq := by
    have hempty : reordered.isEmpty = shapes.isEmpty := by
      rw [Bool.eq_iff_iff, List.isEmpty_iff, List.isEmpty_iff]
      exact ⟨fun hnil => (hnil ▸ hperm).nil_eq.symm, fun hnil => (hnil ▸ hperm).eq_nil⟩
    have hplaced : placedCount reordered = placedCount shapes := hperm.countP_eq _
    have hrecolored : recoloredCount reordered = recoloredCount shapes := hperm.countP_eq _
    change warningsFor reordered = warningsFor shapes
    rw [warningsFor, hempty, hplaced, hrecolored, warningsFor]
  extents_same := by
    by_cases hshapes : shapes = []
    · subst hshapes
      rw [hperm.eq_nil]
      exact .none
    · have hreordered : reordered ≠ [] := fun hnil => hshapes (hnil ▸ hperm).nil_eq.symm
      rw [extents_inspect parameters hshapes, extents_inspect parameters hreordered]
      refine .some ((isLeastAround_extentsOf hreordered fun s hs => h s (hperm.mem_iff.1 hs)).same
        (isLeastAround_extentsOf hshapes h) fun c => ?_)
      exact (hperm.map Shape.bounds).mem_iff

end Inspection

/-- **Inspection is exact and does not depend on the order of the shapes.**  Each kind is counted,
the extents are the least box around the boxes of all shapes, each warning is given exactly when it
is due and with the number of shapes it is about; and shapes in another order give the same
report. -/
theorem inspect_exact (shapes : List Shape) (parameters : Parameters)
    (h : ∀ s ∈ shapes, s.IsFinite) :
    (inspect shapes parameters).IsExact shapes ∧
      ∀ reordered : List Shape, reordered.Perm shapes →
        (inspect reordered parameters).Same (inspect shapes parameters) :=
  ⟨isExact_inspect h parameters, fun _ hperm => same_inspect_of_perm hperm h parameters⟩

/-- A box without any width that counts, at an origin with a minus sign, a sphere in a colour of its
own, and a cylinder whose height is beyond all doubles. -/
def extremeShapes : List Shape :=
  [⟨⟨.box, 5e-324⟩, ⟨-0.0, 0.0, -0.0⟩, none⟩, ⟨⟨.sphere, 2.0⟩, ⟨1.0, -3.0, 1e300⟩, some "teal"⟩,
    ⟨⟨.cylinder, 1.5e308⟩, ⟨0.0, 1e308, 0.0⟩, some "lightgreen"⟩]

theorem inspect_exact_extremeShapes :
    (∀ s ∈ extremeShapes, s.IsFinite) ∧ (inspect extremeShapes .default).IsExact extremeShapes ∧
      ∀ reordered : List Shape, reordered.Perm extremeShapes →
        (inspect reordered .default).Same (inspect extremeShapes .default) :=
  have hfinite : ∀ s ∈ extremeShapes, s.IsFinite := by decide +kernel
  ⟨hfinite, inspect_exact extremeShapes .default hfinite⟩

end Report

end SolidScene
