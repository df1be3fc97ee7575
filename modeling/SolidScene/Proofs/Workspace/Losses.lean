import SolidScene.Proofs.Workspace.Settling

/-!
# What is lost on the way through the script

The report on a scene warns of places and colours, which a script does not say.  Without a warning
every shape is at the origin and in the colour of its kind, and that is how shapes are read back.
There is one more loss, of which no warning is given: a solid whose length is written as no
hundredths at all, or whose scale leaves the range of doubles on the way, is not found again.
`looksLike_cycle_iff` says that this is the only other loss, and `looksLike_cycle` that it does not
befall scales from a hundredth up to a million.
-/

namespace SolidScene

open Script Double

/-- Whether two places are the same; the sign of a zero does not matter. -/
def Vec3.isSame (a b : Vec3) : Bool := a.x == b.x && a.y == b.y && a.z == b.z

/-- A list and what is made of it stay in step if something is made of each element. -/
theorem forall₂_filterMap {α β : Type} {R : α → β → Prop} {f : α → Option β} {xs : List α}
    (h : ∀ x ∈ xs, ∃ y, f x = some y ∧ R x y) : List.Forall₂ R xs (xs.filterMap f) := by
  induction xs with
  | nil => exact .nil
  | cons x xs ih =>
    obtain ⟨⟨y, hy, hR⟩, hxs⟩ := List.forall_mem_cons.1 h
    rw [List.filterMap_cons_some hy]
    exact .cons hR (ih hxs)

/-- Two shapes that differ at most in size. -/
structure Shape.LooksLike (s t : Shape) : Prop where
  kind : s.kind = t.kind
  position : s.position.isSame t.position
  displayColor : s.displayColor = t.displayColor

/-- Whether a solid is found again in its script: the scale that its literal gives is valid. -/
def Solid.isRecovered (unit : LengthUnit) (s : Solid) : Bool :=
  validScale (scaleOfLength s.kind (readBack (leadingLength unit.factor s)) / unit.factor)

theorem isSome_solidOfLiteral? (unit : LengthUnit) (s : Solid) :
    (solidOfLiteral? unit.factor s).isSome = s.isRecovered unit := by
  have hread : (lengthValue (leadingLength unit.factor s)).toFloat? =
      some (readBack (leadingLength unit.factor s)) := rfl
  rw [solidOfLiteral?, hread, Option.bind_some, solidOfLength?, Solid.isRecovered]
  cases Solid.validScale (scaleOfLength s.kind (readBack (leadingLength unit.factor s)) /
    unit.factor) <;> rfl

/-- A solid is found again if its length is written as one hundredth or more, and not as too
many. -/
theorem isRecovered_of_hundredths {unit : LengthUnit} {s : Solid} {h : ℕ}
    (hs : hundredths (leadingLength unit.factor s) = h) (hpos : 1 ≤ h) (hle : h ≤ mostHundredths) :
    s.isRecovered unit := by
  rw [← isSome_solidOfLiteral?, solidOfLiteral?_eq hs,
    if_pos (isOrdinary_settledScale unit s.kind hpos hle).valid, Option.isSome_some]

/-- A greater scale is not written as fewer hundredths. -/
theorem hundredths_leadingLength_mono (unit : LengthUnit) (kind : Kind) {x y : Float}
    (hx : IsBounded 20 x) (hy : IsBounded 20 y) (h : value x ≤ value y) :
    hundredths (leadingLength unit.factor ⟨kind, x⟩) ≤
      hundredths (leadingLength unit.factor ⟨kind, y⟩) := by
  have hunit := (isFactor_unit unit).isBounded
  have hradius {c : Float} (hc : IsFactor c) :
      hundredths (c * x * unit.factor) ≤ hundredths (c * y * unit.factor) := by
    have hx' := hc.isBounded.mul hx (by decide)
    have hy' := hc.isBounded.mul hy (by decide)
    have hproduct : value (c * x) ≤ value (c * y) :=
      hc.isBounded.value_mul_le hx hc.isBounded hy (by decide) le_rfl h
    exact (hx'.mul hunit (by decide)).hundredths_mono (hy'.mul hunit (by decide))
      (hx'.value_mul_le hunit hy' hunit (by decide) hproduct le_rfl)
  cases kind with
  | box =>
    exact (hx.mul hunit (by decide)).hundredths_mono (hy.mul hunit (by decide))
      (hx.value_mul_le hunit hy hunit (by decide) h le_rfl)
  | sphere => exact hradius isFactor_sphereRadiusFactor
  | cylinder => exact hradius isFactor_cylinderRadiusFactor

/-- A scale of a hundredth is written as one hundredth at least. -/
theorem one_le_hundredths_leadingLength (unit : LengthUnit) {s : Solid}
    (hbounded : IsBounded 20 s.scale) (hscale : 0.01 ≤ s.scale) :
    1 ≤ hundredths (leadingLength unit.factor s) := by
  have hleast : IsBounded 20 0.01 := isBounded_of_ofFloat? (by decide)
  have hvalue : value 0.01 ≤ value s.scale := (le_iff hleast.finite hbounded.finite).1 hscale
  refine le_trans ?_ (hundredths_leadingLength_mono unit s.kind hleast hbounded hvalue)
  generalize s.kind = kind
  cases unit <;> cases kind <;> decide

theorem isRecovered_of_scale (unit : LengthUnit) {s : Solid} (hfinite : s.scale.isFinite)
    (hleast : 0.01 ≤ s.scale) (hle : s.scale ≤ 1000000.0) : s.isRecovered unit := by
  have hhundredth : (0.01 : Float).isFinite ∧ 0.0 < (0.01 : Float) := by decide
  have hpos : 0 < value s.scale := ((zero_lt_iff hhundredth.1).1 hhundredth.2).trans_le
    ((le_iff hhundredth.1 hfinite).1 hleast)
  have hbounded := isBounded_of_le_million hfinite ((zero_lt_iff hfinite).2 hpos) hle
  obtain ⟨h, hmost, hh⟩ := hasPlainLength_of_isBounded hbounded unit
  have hone := one_le_hundredths_leadingLength unit hbounded hleast
  rw [hh] at hone
  exact isRecovered_of_hundredths hh (by omega) hmost

/-! ### Scenes without a warning -/

theorem isOrigin_of_warningsFor_eq_nil {shapes : List Shape} (h : Report.warningsFor shapes = [])
    {s : Shape} (hs : s ∈ shapes) :
    s.position.isOrigin ∧ s.displayColor = s.kind.defaultColor := by
  obtain ⟨-, horigin, hcolor⟩ : shapes ≠ [] ∧ (∀ s ∈ shapes, s.position.isOrigin) ∧
      ∀ s ∈ shapes, s.hasDefaultColor := by
    simpa [Report.warningsFor, Report.placedCount, Report.recoloredCount] using h
  exact ⟨horigin s hs, by simpa [Shape.hasDefaultColor] using hcolor s hs⟩

/-- A shape of which there is no warning looks like one read from a script. -/
theorem looksLike_atOrigin {shapes : List Shape} (h : Report.warningsFor shapes = []) {s : Shape}
    (hs : s ∈ shapes) {t : Solid} (hkind : t.kind = s.kind) : s.LooksLike (.atOrigin t) := by
  obtain ⟨horigin, hcolor⟩ := isOrigin_of_warningsFor_eq_nil h hs
  exact ⟨hkind.symm, horigin, by rw [hcolor, Shape.atOrigin, Shape.displayColor_ofSolid, hkind]⟩

namespace Workspace

variable {w : Workspace}

theorem shapes_cycle_of_shell (hstyle : w.parameters.style = .shell) :
    w.cycle.scene.shapes = w.scene.shapes.filterMap fun s =>
      (solidOfLiteral? w.parameters.unit.factor s.toSolid).map .atOrigin := by
  have hread : w.cycle.scene.solids =
      w.scene.solids.filterMap (solidOfLiteral? w.parameters.unit.factor) := by
    rw [solids_cycle, readSolids, hstyle, read_write_eq_filterMap, List.filter_eq_self]
    intro t ht
    obtain ⟨s, -, hs⟩ := List.mem_filterMap.1 ht
    exact (spec_of_solidOfLiteral? hs).2
  rw [shapes_cycle, ← solids_cycle, hread, Scene.solids, List.filterMap_map, List.map_filterMap]
  rfl

/-- Shapes of which there is no warning are kept if each solid is found again. -/
theorem looksLike_cycle_of_isRecovered (hstyle : w.parameters.style = .shell)
    (hsilent : w.inspect.warnings = [])
    (h : ∀ s ∈ w.scene.shapes, s.toSolid.isRecovered w.parameters.unit) :
    List.Forall₂ Shape.LooksLike w.scene.shapes w.cycle.scene.shapes := by
  rw [shapes_cycle_of_shell hstyle]
  refine forall₂_filterMap fun s hs => ?_
  obtain ⟨t, ht⟩ := Option.isSome_iff_exists.1 ((isSome_solidOfLiteral? _ _).trans (h s hs))
  exact ⟨.atOrigin t, by rw [ht, Option.map_some],
    looksLike_atOrigin hsilent hs (spec_of_solidOfLiteral? ht).1⟩

/-- **The only loss without a warning is that of whole solids.**  In the shell style, and without a
warning, as many shapes are read back as there were, and each looks like the one in its place, if
and only if each solid is found again. -/
theorem looksLike_cycle_iff (hstyle : w.parameters.style = .shell)
    (hsilent : w.inspect.warnings = []) :
    List.Forall₂ Shape.LooksLike w.scene.shapes w.cycle.scene.shapes ↔
      ∀ s ∈ w.scene.shapes, s.toSolid.isRecovered w.parameters.unit := by
  refine ⟨fun h s hs => ?_, looksLike_cycle_of_isRecovered hstyle hsilent⟩
  by_contra hlost
  rw [← isSome_solidOfLiteral?, Option.isSome_iff_ne_none, not_not] at hlost
  -- Where a solid is not found again there are fewer shapes than before.
  have hfewer : w.cycle.scene.shapes.length < w.scene.shapes.length := by
    rw [shapes_cycle_of_shell hstyle, List.length_filterMap_lt_length_iff_exists]
    exact ⟨s, hs, by rw [hlost, Option.map_none]⟩
  exact absurd h.length_eq hfewer.ne'

/-- A box that stays, and one so small that it is written as nothing; no warning is given. -/
def speckScene : Workspace :=
  ofScene ⟨[⟨⟨.box, 2.0⟩, ⟨-0.0, 0.0, 0.0⟩, none⟩, ⟨⟨.box, 0.001⟩, .zero, some "blue"⟩], none, none⟩
    ⟨.millimeters, 0.1, 32, .shell⟩

theorem looksLike_cycle_iff_speckScene :
    (speckScene.parameters.style = .shell ∧ speckScene.inspect.warnings = []) ∧
      (List.Forall₂ Shape.LooksLike speckScene.scene.shapes speckScene.cycle.scene.shapes ↔
        ∀ s ∈ speckScene.scene.shapes, s.toSolid.isRecovered speckScene.parameters.unit) :=
  have hsilent : speckScene.inspect.warnings = [] := by decide +kernel
  ⟨⟨rfl, hsilent⟩, looksLike_cycle_iff rfl hsilent⟩

/-- A valid scale and the absence of warnings do not save a solid. -/
theorem not_looksLike_cycle :
    ¬ ∀ w : Workspace, w.parameters.style = .shell →
      (∀ s ∈ w.scene.shapes, Solid.validScale s.scale) → w.inspect.warnings = [] →
        List.Forall₂ Shape.LooksLike w.scene.shapes w.cycle.scene.shapes := by
  intro h
  have hlooks := h speckScene rfl (by decide +kernel) (by decide +kernel)
  have hfewer : speckScene.cycle.scene.shapes.length = 1 := by
    rw [shapes_cycle_of_shell rfl]
    decide +kernel
  have hlength := hlooks.length_eq
  rw [hfewer] at hlength
  exact absurd hlength (by decide)

/-- **Nothing is lost without a warning of scales from a hundredth up to a million.** -/
theorem looksLike_cycle (hstyle : w.parameters.style = .shell)
    (hsilent : w.inspect.warnings = [])
    (hscale : ∀ s ∈ w.scene.shapes, s.scale.isFinite ∧ 0.01 ≤ s.scale ∧ s.scale ≤ 1000000.0) :
    List.Forall₂ Shape.LooksLike w.scene.shapes w.cycle.scene.shapes :=
  looksLike_cycle_of_isRecovered hstyle hsilent fun s hs =>
    have ⟨hfinite, hleast, hle⟩ := hscale s hs
    isRecovered_of_scale _ hfinite hleast hle

end Workspace

end SolidScene
