import SolidScene.Proofs.Double.Decimal

/-!
# Products that are finite

A product is finite only if its factors are and if the exact product, rounded, is in range
(`value_mul_of_isFinite`).  So how far a finite product is off is told by its own size
(`abs_value_mul_sub_le`), and a product with one is the other factor in value (`mul_one_spec`).
-/

namespace SolidScene.Double

open Float.Model
open Float.Model.UnpackedFloat (Sign)

section Finite

variable {x y : Float}

/-- What is packed into a finite double is finite. -/
theorem isFinite_of_isFinite_pack {u : UnpackedFloat} (h : (Float.ofModel (.pack u)).isFinite) :
    u.isFinite := by
  replace h : (Float.Model.pack u).unpack.isFinite = true := h
  cases u with
  | infinity s => rwa [unpack_pack_infinity] at h
  | notANumber => rwa [unpack_pack_notANumber] at h
  | _ => rfl

/-- What is packed into a finite double is in range. -/
theorem IsReduced.abs_lt_of_isFinite {u : UnpackedFloat} (h : IsReduced u)
    (hfinite : (Float.ofModel (.pack u)).isFinite) : |unpackedValue u| < 2 ^ (1024 : ℤ) := by
  cases h with
  | zero s =>
    rw [unpackedValue_zero, abs_zero]
    exact two_zpow_pos 1024
  | @finite s m e h hm =>
    by_contra hrange
    rw [unpackedValue_finite, abs_mul, abs_signFactor, one_mul, abs_of_pos (by positivity),
      not_lt] at hrange
    have hpack : Float.Model.pack (.finite s m e hm) = .pack (.infinity s) := by
      simp only [Float.Model.pack, pack_of_two_zpow_le hm h hrange]
    rw [hpack] at hfinite
    cases isFinite_of_isFinite_pack hfinite

/-- A factor that is not finite makes the product so. -/
theorem isFinite_of_isFinite_mul (h : (x * y).isFinite) : x.isFinite := by
  have hfinite := isFinite_of_isFinite_pack
    (u := UnpackedFloat.mul .binary64 x.toModel.unpack y.toModel.unpack) h
  change x.toModel.unpack.isFinite = true
  generalize x.toModel.unpack = u at hfinite ⊢
  generalize y.toModel.unpack = v at hfinite
  cases u with
  | infinity s => cases v <;> cases hfinite
  | notANumber => cases hfinite
  | _ => rfl

/-- **A finite product** is the exact product rounded. -/
theorem value_mul_of_isFinite (hy : y.isFinite) (h : (x * y).isFinite) :
    value (x * y) = nearest (value x * value y) := by
  have hx := isFinite_of_isFinite_mul h
  obtain ⟨hreduced, hvalue⟩ := (isReduced_unpack hx).mul_spec (isReduced_unpack hy)
  have hrange := hreduced.abs_lt_of_isFinite h
  rw [hvalue] at hrange
  exact (mul_spec hx hy hrange).2

/-- What is divided by an infinity is zero, where it is finite at all. -/
theorem value_div_eq_zero (hy : ¬ y.isFinite) (h : (x / y).isFinite) : value (x / y) = 0 := by
  have hfinite := isFinite_of_isFinite_pack
    (u := UnpackedFloat.div .binary64 x.toModel.unpack y.toModel.unpack) h
  change ¬ y.toModel.unpack.isFinite = true at hy
  change unpackedValue
    (Float.Model.pack (.div .binary64 x.toModel.unpack y.toModel.unpack)).unpack = 0
  generalize x.toModel.unpack = u at hfinite ⊢
  generalize y.toModel.unpack = v at hfinite hy ⊢
  have hzero (s : Sign) : unpackedValue (Float.Model.pack (.zero s)).unpack = 0 := by
    rw [unpack_pack (.zero s) (by rw [unpackedValue_zero, abs_zero]; exact two_zpow_pos 1024)]
    exact unpackedValue_zero s
  cases v with
  | infinity t =>
    cases u with
    | infinity s => cases hfinite
    | notANumber => cases hfinite
    | zero s => exact hzero (s / t)
    | finite s m e hm => exact hzero (s / t)
  | notANumber => cases u <;> cases hfinite
  | _ => exact absurd rfl hy

end Finite

/-! ### Errors -/

theorem abs_nearest (q : ℚ) : |nearest q| = nearest |q| := by
  rcases le_total 0 q with hq | hq
  · rw [abs_of_nonneg hq, abs_of_nonneg (nearest_nonneg hq)]
  · have hnonneg := nearest_nonneg (neg_nonneg.2 hq)
    rw [abs_of_nonpos hq, ← abs_neg, ← nearest_neg, abs_of_nonneg hnonneg]

/-- What rounds to less than 53 bits of a grid is off by half a step of this grid at most. -/
theorem abs_nearest_sub_le_of_lt {q : ℚ} {e : ℤ} (he : -1074 ≤ e)
    (h : |nearest q| < 2 ^ (e + 53)) : |nearest q - q| ≤ 2 ^ e / 2 := by
  rcases eq_or_ne q 0 with rfl | hq
  · rw [nearest_zero, sub_zero, abs_zero]
    exact (half_pos (two_zpow_pos e)).le
  have hlt : |q| < 2 ^ (e + 53) := by
    by_contra hge
    rw [abs_nearest] at h
    exact h.not_ge (two_zpow_le_nearest_of_le (by omega) (not_lt.1 hge))
  exact (abs_nearest_sub_le q).trans
    (div_le_div_of_nonneg_right (two_zpow_le (stepExponent_le hq he hlt)) two_pos.le)

section Value

variable {x y : Float}

/-- A number in reduced form is on the grid of doubles. -/
theorem IsReduced.nearest_unpackedValue {u : UnpackedFloat} (h : IsReduced u) :
    nearest (unpackedValue u) = unpackedValue u := by
  cases h with
  | zero s => exact nearest_zero
  | @finite s m e h hm =>
    have hbits : |(m : ℤ)| < 2 ^ 53 := by
      rw [Nat.abs_cast]
      exact_mod_cast h.lt_two_pow
    have hgrid := nearest_of_grid hbits h.neg_1074_le
    rw [Int.cast_natCast] at hgrid
    rw [unpackedValue_finite, nearest_signFactor_mul, hgrid]

/-- The value of a double is on the grid of doubles. -/
theorem nearest_value (hx : x.isFinite) : nearest (value x) = value x :=
  (isReduced_unpack hx).nearest_unpackedValue

/-- A product that is no longer than a double is in range, and rounding does not make it longer. -/
theorem mul_spec_of_abs_le {z : Float} (hx : x.isFinite) (hy : y.isFinite) (hz : z.isFinite)
    (h : |value x * value y| ≤ |value z|) : (x * y).isFinite ∧ |value (x * y)| ≤ |value z| := by
  have hle : |nearest (value x * value y)| ≤ |value z| := by
    rw [abs_nearest, ← nearest_value hz, abs_nearest]
    exact nearest_mono h
  obtain ⟨hfinite, hvalue⟩ := mul_spec hx hy (hle.trans_lt (abs_value_lt z))
  exact ⟨hfinite, hvalue ▸ hle⟩

/-- The error of a finite product, told by the size of the product. -/
theorem abs_value_mul_sub_le (hy : y.isFinite) (h : (x * y).isFinite) {e : ℤ} (he : -1074 ≤ e)
    (hlt : |value (x * y)| < 2 ^ (e + 53)) :
    |value (x * y) - value x * value y| ≤ 2 ^ e / 2 := by
  rw [value_mul_of_isFinite hy h] at hlt ⊢
  exact abs_nearest_sub_le_of_lt he hlt

theorem one_spec : (1.0 : Float).isFinite ∧ value 1.0 = 1 := by decide +kernel

/-- A product with one keeps the value. -/
theorem mul_one_spec (hx : x.isFinite) : (x * 1.0).isFinite ∧ value (x * 1.0) = value x := by
  have hspec := mul_spec hx one_spec.1
  rw [one_spec.2, mul_one, nearest_value hx] at hspec
  exact hspec (abs_value_lt x)

end Value

end SolidScene.Double
