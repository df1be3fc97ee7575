import SolidScene.Proofs.Workspace.Losses

/-!
# How far a scale is moved

A length is written to the nearest hundredth, so it is moved by half a hundredth at most, and the
scale by half a hundredth over the length of a solid of scale one, which is a half or more.  The
roundings on the way add far less than `1 / 10 ^ 9` (`abs_settledScale_sub_le`).

* A solid of scale from a hundredth up to a hundred thousand is read back in any unit and style, and
  its scale is off by a hundredth over the unit at most (`read_write_accurate`).
* A scan of bare solids in millimetres keeps within a hundredth of every scale up to ten, however
  small: a length that is written as no hundredths belongs to a scale that is no more than that
  (`scan_write_accurate`).
-/

namespace SolidScene

open Script Double

/-! ### From a scale to hundredths and back -/

theorem half_le_lengthFactor (kind : Kind) : 1 / 2 ≤ lengthFactor kind := by
  cases kind with
  | box => norm_num [lengthFactor]
  | sphere =>
    rw [← value_cylinderRadiusFactor]
    exact (le_iff isFactor_cylinderRadiusFactor.finite isFactor_sphereRadiusFactor.finite).1
      (by decide)
  | cylinder => exact value_cylinderRadiusFactor.ge

theorem one_le_value_unit (unit : LengthUnit) : 1 ≤ value unit.factor := by
  rw [value_unit]
  cases unit <;> norm_num [LengthUnit.multiple]

/-- Hundredths are half a hundredth away at most, and the roundings before them. -/
theorem abs_hundredths_sub_le {n : ℕ} {x : Float} {q : ℚ} (hx : IsNear n x q) :
    |(hundredths x : ℚ) / 100 - q| ≤ 1 / 200 + n * 2 ^ (-52 : ℤ) * q := by
  calc |(hundredths x : ℚ) / 100 - q|
      ≤ |(hundredths x : ℚ) / 100 - value x| + |value x - q| := abs_sub_le _ _ _
    _ ≤ 1 / 200 + n * 2 ^ (-52 : ℤ) * q :=
        add_le_add (abs_hundredths_sub_value_le hx.finite) hx.close

/-- The scale that the hundredths of a length stand for, before it is read with roundings. -/
theorem abs_writtenScale_sub_le (unit : LengthUnit) {s : Solid}
    (hs : IsNear 0 s.scale (value s.scale)) {h : ℕ}
    (hh : hundredths (leadingLength unit.factor s) = h) :
    |h / 100 / lengthFactor s.kind / value unit.factor - value s.scale| ≤
      1 / 100 / value unit.factor + 2 * 2 ^ (-52 : ℤ) * value s.scale := by
  have hunit := (isFactor_unit unit).pos
  have hfactor := lengthFactor_pos s.kind
  have hhalf := half_le_lengthFactor s.kind
  have hlength := abs_hundredths_sub_le (isNear_leadingLength unit s.kind hs (by decide))
  rw [hh, Int.cast_natCast, zero_add, Nat.cast_ofNat] at hlength
  generalize lengthFactor s.kind = d at *
  generalize value unit.factor = f at *
  generalize value s.scale = v at *
  have hscaled : h / 100 / d / f - v = (h / 100 - v * d * f) / d / f := by field_simp
  calc |h / 100 / d / f - v| = |(h : ℚ) / 100 - v * d * f| / d / f := by
        rw [hscaled, abs_div, abs_div, abs_of_pos hfactor, abs_of_pos hunit]
    _ ≤ (1 / 200 + 2 * 2 ^ (-52 : ℤ) * (v * d * f)) / d / f := by gcongr
    _ = 1 / 200 / d / f + 2 * 2 ^ (-52 : ℤ) * v := by field_simp
    _ ≤ 1 / 100 / f + 2 * 2 ^ (-52 : ℤ) * v := by
        have hstep : 1 / 200 / d ≤ 1 / 100 := by
          rw [div_le_iff₀ hfactor]
          linarith
        gcongr

/-- A scale that is written as some hundredths is not too small for its roundings to be small. -/
theorem two_zpow_le_value (unit : LengthUnit) {s : Solid} (hbounded : IsBounded 20 s.scale)
    (hpos : 1 ≤ hundredths (leadingLength unit.factor s)) : 2 ^ (-50 : ℤ) ≤ value s.scale := by
  have hmillionth : IsBounded 20 0.000001 := isBounded_of_ofFloat? (by decide)
  have hvalue : 2 ^ (-50 : ℤ) ≤ value 0.000001 := by
    rw [value_of_ofFloat? (m := 4722366482869645) (e := -72) (by decide)]
    norm_num
  rcases le_total (value 0.000001) (value s.scale) with hle | hle
  · exact hvalue.trans hle
  -- A scale of a millionth is written as nothing, even in the largest unit.
  · have hnothing : hundredths (leadingLength unit.factor ⟨s.kind, 0.000001⟩) = 0 := by
      generalize s.kind = kind
      cases unit <;> cases kind <;> decide
    have hmono := hundredths_leadingLength_mono unit s.kind hbounded hmillionth hle
    rw [hnothing] at hmono
    exact absurd (hpos.trans hmono) (by decide)

/-- **A scale is moved by a hundredth over the unit at most**, and by what the roundings add. -/
theorem abs_settledScale_sub_le (unit : LengthUnit) {s : Solid} (hbounded : IsBounded 17 s.scale)
    {h : ℕ} (hh : hundredths (leadingLength unit.factor s) = h) (hpos : 1 ≤ h)
    (hle : h ≤ mostHundredths) :
    |value (settledScale unit s.kind h) - value s.scale| ≤
      1 / 100 / value unit.factor + 1 / 10 ^ 9 := by
  have hleast : 2 ^ (-50 : ℤ) ≤ value s.scale :=
    two_zpow_le_value unit (hbounded.mono (by decide)) (by omega)
  have hmost := hbounded.le
  have hscale : IsNear 0 s.scale (value s.scale) := by
    refine ⟨hbounded.finite, by simp, by simpa using hleast, hmost.trans ?_⟩
    norm_num
  have hwritten := abs_writtenScale_sub_le unit hscale hh
  have hread := (isNear_settledScale unit s.kind hpos hle).close
  have hstep : 1 / 100 / value unit.factor ≤ 1 / 100 :=
    div_le_self (by norm_num) (one_le_value_unit unit)
  generalize (h : ℚ) / 100 / lengthFactor s.kind / value unit.factor = written at hwritten hread
  refine (abs_sub_le _ written _).trans ?_
  -- Five roundings of a scale below `2 ^ 17` come to less than `1 / 10 ^ 9`.
  have habove := (abs_le.1 hwritten).2
  norm_num at hread hwritten habove hmost ⊢
  linarith

/-! ### Reading and scanning a written solid -/

/-- **The accuracy of reading.**  A solid of any kind, written in any style and unit, is read as one
solid of its kind whose scale is off by a hundredth over the unit at most, roundings aside. -/
theorem read_write_accurate (p : Parameters) (kind : Kind) {scale : Float} (hleast : 0.01 ≤ scale)
    (hmost : scale ≤ 100000.0) :
    ∃ scale', read p.unit (write p [⟨kind, scale⟩]) = [⟨kind, scale'⟩] ∧ scale'.isFinite ∧
      |value scale' - value scale| ≤ 1 / 100 / value p.unit.factor + 1 / 10 ^ 9 := by
  have hhundredth : IsFactor 0.01 := isFactor_of_ofFloat? (by decide +kernel)
  have hfinite : scale.isFinite :=
    isFinite_of_le_of_le hhundredth.finite (by decide +kernel) hleast hmost
  have hpositive : 0 < value scale :=
    hhundredth.pos.trans_le ((le_iff hhundredth.finite hfinite).1 hleast)
  have hbounded : IsBounded 17 scale :=
    isBounded_of_le_hundredThousand (validScale_iff.2 ⟨hfinite, hpositive⟩) hmost
  obtain ⟨h, hle, hh⟩ :=
    hasPlainLength_of_isBounded (s := ⟨kind, scale⟩) (hbounded.mono (by decide)) p.unit
  have hpos := one_le_hundredths_leadingLength p.unit (s := ⟨kind, scale⟩)
    (hbounded.mono (by decide)) hleast
  rw [hh] at hpos
  have hnear := isNear_settledScale p.unit kind (by omega) hle
  have herror := abs_settledScale_sub_le p.unit (s := ⟨kind, scale⟩) hbounded hh (by omega) hle
  refine ⟨settledScale p.unit kind h, ?_, hnear.finite, herror⟩
  have hliteral := solidOfLiteral?_eq hh
  rw [if_pos (hnear.validScale (by decide))] at hliteral
  rw [read_write_eq_filterMap, List.filterMap_cons_some hliteral, List.filterMap_nil]

/-- A cylinder whose radius is half way between two hundredths, with a wall that is not a number. -/
theorem read_write_accurate_halfway :
    ((0.01 : Float) ≤ 0.25 ∧ (0.25 : Float) ≤ 100000.0) ∧
      ∃ scale', read .millimeters (write ⟨.millimeters, 0.0 / 0.0, 32, .shell⟩
        [⟨.cylinder, 0.25⟩]) = [⟨.cylinder, scale'⟩] ∧ scale'.isFinite ∧
          |value scale' - value 0.25| ≤
            1 / 100 / value LengthUnit.millimeters.factor + 1 / 10 ^ 9 :=
  have hleast : (0.01 : Float) ≤ 0.25 := by decide +kernel
  have hmost : (0.25 : Float) ≤ 100000.0 := by decide +kernel
  ⟨⟨hleast, hmost⟩,
    read_write_accurate ⟨.millimeters, 0.0 / 0.0, 32, .shell⟩ .cylinder hleast hmost⟩

/-- A length that is written as no hundredths belongs to a scale of a hundredth at most. -/
theorem value_le_of_hundredths_eq_zero (unit : LengthUnit) {s : Solid}
    (hbounded : IsBounded 20 s.scale) (hzero : hundredths (leadingLength unit.factor s) = 0) :
    value s.scale ≤ 1 / 100 + 1 / 10 ^ 9 := by
  have hvalue : value 0.01 ≤ 1 / 100 + 1 / 10 ^ 9 := by
    rw [value_of_ofFloat? (m := 5764607523034235) (e := -59) (by decide)]
    norm_num
  by_contra hlt
  have hscale : 0.01 ≤ s.scale :=
    (le_iff (by decide) hbounded.finite).2 (hvalue.trans (not_le.1 hlt).le)
  have hone := one_le_hundredths_leadingLength unit hbounded hscale
  rw [hzero] at hone
  exact absurd hone (by decide)

theorem settledScale_millimeters_zero (kind : Kind) :
    (settledScale .millimeters kind 0).isFinite ∧ value (settledScale .millimeters kind 0) = 0 := by
  cases kind <;> decide

/-- A scan takes the hundredths of a bare solid for millimetres. -/
theorem scan_write_singleton {p : Parameters} (hstyle : p.style = .solid) {s : Solid}
    (hs : IsOrdinary s) {h : ℕ} (hh : hundredths (leadingLength p.unit.factor s) = h) :
    scan (write p [s]) = [⟨s.kind, settledScale .millimeters s.kind h⟩] := by
  have hplain : ∀ t ∈ [s], ∀ x ∈ shownLengths p.unit.factor t, 0 ≤ hundredths x :=
    List.forall_mem_singleton.2 (hs.hundredths_nonneg p.unit)
  have horder : inReadingOrder .solid [s] = [s] := by
    obtain ⟨kind, scale⟩ := s
    cases kind <;> rfl
  have hscale : settledScale .millimeters s.kind h = scannedScale s.kind h := Double.div_one _
  rw [scan_write_eq_map hstyle hplain, horder, List.map_singleton, rescanned, readBack_eq hh,
    hscale]
  rfl

/-- **The accuracy of scanning.**  A bare solid of any kind in millimetres is scanned as one solid
of its kind whose scale is off by a hundredth at most, roundings aside, however small it is. -/
theorem scan_write_accurate {p : Parameters} (hstyle : p.style = .solid)
    (hunit : p.unit = .millimeters) (kind : Kind) {scale : Float} (hleast : 0.0 < scale)
    (hmost : scale ≤ 10.0) :
    ∃ scale', scan (write p [⟨kind, scale⟩]) = [⟨kind, scale'⟩] ∧ scale'.isFinite ∧
      |value scale' - value scale| ≤ 1 / 100 + 1 / 10 ^ 9 := by
  have hten : IsBounded 17 10.0 := isBounded_of_ofFloat? (by decide +kernel)
  have hfinite : scale.isFinite :=
    isFinite_of_le_of_le isFinite_zero hten.finite (float_le_of_lt hleast) hmost
  have hpositive : 0 < value scale := (zero_lt_iff hfinite).1 hleast
  have hbounded : IsBounded 17 scale := hten.of_le hfinite hpositive.le hmost
  have hordinary : IsOrdinary ⟨kind, scale⟩ :=
    ⟨validScale_iff.2 ⟨hfinite, hpositive⟩, hbounded.mono (by decide)⟩
  obtain ⟨h, hle, hh⟩ :=
    hasPlainLength_of_isBounded (s := ⟨kind, scale⟩) (hbounded.mono (by decide)) p.unit
  refine ⟨settledScale .millimeters kind h, scan_write_singleton hstyle hordinary hh, ?_⟩
  rw [hunit] at hh
  rcases Nat.eq_zero_or_pos h with rfl | hpos
  · obtain ⟨hfiniteZero, hzero⟩ := settledScale_millimeters_zero kind
    have hsmall := value_le_of_hundredths_eq_zero .millimeters (hbounded.mono (by decide)) hh
    refine ⟨hfiniteZero, ?_⟩
    rwa [hzero, zero_sub, abs_neg, abs_of_pos hpositive]
  · have herror := abs_settledScale_sub_le .millimeters (s := ⟨kind, scale⟩) hbounded hh hpos hle
    have hstep : 1 / 100 / value LengthUnit.millimeters.factor = 1 / 100 := by
      simp [value_unit, LengthUnit.multiple]
    rw [hstep] at herror
    exact ⟨(isNear_settledScale .millimeters kind hpos hle).finite, herror⟩

/-- A sphere of the least scale there is. -/
theorem scan_write_accurate_least :
    ((0.0 : Float) < 5e-324 ∧ (5e-324 : Float) ≤ 10.0) ∧
      ∃ scale', scan (write ⟨.millimeters, 0.1, 32, .solid⟩ [⟨.sphere, 5e-324⟩]) =
        [⟨.sphere, scale'⟩] ∧ scale'.isFinite ∧
          |value scale' - value 5e-324| ≤ 1 / 100 + 1 / 10 ^ 9 :=
  have hleast : (0.0 : Float) < 5e-324 := by decide +kernel
  have hmost : (5e-324 : Float) ≤ 10.0 := by decide +kernel
  ⟨⟨hleast, hmost⟩, scan_write_accurate rfl rfl .sphere hleast hmost⟩

end SolidScene
