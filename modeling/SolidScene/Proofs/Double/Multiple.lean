import SolidScene.Proofs.Double.Error
import SolidScene.Proofs.Double.Sum

/-!
# Multiples of a number

What is worked out from lengths that differ by signs alone stays a small multiple of one number,
which is rounded once for each product (`IsMultiple`).  Half of a scale is the one product at the
start: twice the half is the scale again, unless the scale is far below all ordinary numbers
(`half_spec`).
-/

namespace SolidScene.Double

/-! ### Small multiples -/

/-- Whether a double is finite and a multiple of a number. -/
structure IsMultiple (q : ℚ) (k : ℤ) (x : Float) : Prop where
  finite : x.isFinite
  value_eq : value x = k * q

section Multiples

variable {p q : ℚ} {k l : ℤ} {x y : Float}

theorem abs_mul_le_one (hk : |k| ≤ 1) (hl : |l| ≤ 1) : |k * l| ≤ 1 := by
  rw [abs_mul]
  exact mul_le_one₀ hk (abs_nonneg l) hl

/-- A number at most once, with a sign, is rounded like the number. -/
theorem nearest_intCast_mul (hk : |k| ≤ 1) (q : ℚ) : nearest (k * q) = k * nearest q := by
  rcases Int.abs_le_one_iff.1 hk with rfl | rfl | rfl <;> simp

theorem abs_intCast_mul_lt (hk : |k| ≤ 1) (hq : |q| < 2 ^ (1024 : ℤ)) :
    |k * q| < 2 ^ (1024 : ℤ) := by
  have hcast : |(k : ℚ)| ≤ 1 := by exact_mod_cast hk
  rw [abs_mul]
  exact (mul_le_of_le_one_left (abs_nonneg q) hcast).trans_lt hq

namespace IsMultiple

theorem mul_of_isFinite (hx : IsMultiple p k x) (hy : IsMultiple q l y) (hkl : |k * l| ≤ 1)
    (h : (x * y).isFinite) : IsMultiple (nearest (p * q)) (k * l) (x * y) := by
  refine ⟨h, ?_⟩
  rw [value_mul_of_isFinite hy.finite h, hx.value_eq, hy.value_eq, mul_mul_mul_comm, ← Int.cast_mul,
    nearest_intCast_mul hkl]

theorem mul (hx : IsMultiple p k x) (hy : IsMultiple q l y) (hkl : |k * l| ≤ 1)
    (hrange : |nearest (p * q)| < 2 ^ (1024 : ℤ)) :
    IsMultiple (nearest (p * q)) (k * l) (x * y) := by
  refine hx.mul_of_isFinite hy hkl (mul_spec hx.finite hy.finite ?_).1
  rw [hx.value_eq, hy.value_eq, mul_mul_mul_comm, ← Int.cast_mul, nearest_intCast_mul hkl]
  exact abs_intCast_mul_lt hkl hrange

theorem sub_of_isFinite (hx : IsMultiple q k x) (hy : IsMultiple q l y) (hkl : |k - l| ≤ 1)
    (hgrid : nearest q = q) (h : (x - y).isFinite) : IsMultiple q (k - l) (x - y) := by
  refine ⟨h, ?_⟩
  rw [value_sub_of_isFinite h, hx.value_eq, hy.value_eq, ← sub_mul, ← Int.cast_sub,
    nearest_intCast_mul hkl, hgrid]

theorem sub (hx : IsMultiple q k x) (hy : IsMultiple q l y) (hkl : |k - l| ≤ 1)
    (hgrid : nearest q = q) (hrange : |q| < 2 ^ (1024 : ℤ)) : IsMultiple q (k - l) (x - y) := by
  refine hx.sub_of_isFinite hy hkl hgrid (sub_spec hx.finite hy.finite ?_).1
  rw [hx.value_eq, hy.value_eq, ← sub_mul, ← Int.cast_sub, nearest_intCast_mul hkl, hgrid]
  exact abs_intCast_mul_lt hkl hrange

theorem add (hx : IsMultiple q k x) (hy : IsMultiple q l y) (hkl : |k + l| ≤ 1)
    (hgrid : nearest q = q) (hrange : |q| < 2 ^ (1024 : ℤ)) : IsMultiple q (k + l) (x + y) := by
  have hsum : nearest (value x + value y) = ((k + l : ℤ) : ℚ) * q := by
    rw [hx.value_eq, hy.value_eq, ← add_mul, ← Int.cast_add, nearest_intCast_mul hkl, hgrid]
  obtain ⟨hfinite, hvalue⟩ := add_spec hx.finite hy.finite
    (hsum ▸ abs_intCast_mul_lt hkl hrange)
  exact ⟨hfinite, hvalue.trans hsum⟩

/-- A multiple divided by the number. -/
theorem div (hx : IsMultiple q k x) (hy : IsMultiple q 1 y) (hk : |k| ≤ 1) (hq : q ≠ 0) :
    IsMultiple 1 k (x / y) := by
  have hy' : value y = q := by rw [hy.value_eq, Int.cast_one, one_mul]
  have hquotient : nearest (value x / value y) = k * 1 := by
    have hone := nearest_two_zpow (e := 0) (by norm_num)
    rw [zpow_zero] at hone
    rw [hx.value_eq, hy', mul_div_assoc, div_self hq, nearest_intCast_mul hk, hone]
  obtain ⟨hfinite, hvalue⟩ := div_spec hx.finite hy.finite (hy' ▸ hq)
    (hquotient ▸
      abs_intCast_mul_lt hk (by rw [abs_one]; exact one_lt_zpow₀ one_lt_two (by norm_num)))
  exact ⟨hfinite, hvalue.trans hquotient⟩

end IsMultiple

end Multiples

/-! ### Halves -/

section Halves

variable {p : ℚ} {x : Float}

/-- Twice a point of the grid is on the grid. -/
theorem nearest_two_mul (hgrid : nearest p = p) : nearest (2 * p) = 2 * p := by
  rcases eq_or_ne p 0 with rfl | hp
  · rw [mul_zero, nearest_zero]
  have hfinest := neg_1074_le_stepExponent p
  have hdouble : 2 * p = roundEven (p / 2 ^ stepExponent p) * 2 ^ (stepExponent p + 1) := by
    nth_rewrite 1 [← hgrid]
    rw [nearest, two_zpow_add, zpow_one]
    ring
  refine nearest_of_step hdouble (stepExponent_le (mul_ne_zero two_ne_zero hp) (by omega) ?_)
  rw [show stepExponent p + 1 + 53 = 1 + (stepExponent p + 53) by ring, two_zpow_add, zpow_one,
    abs_mul, abs_two]
  exact mul_lt_mul_of_pos_left (abs_lt_two_zpow_stepExponent p) two_pos

/-- Half of a point of the grid is on the grid, unless it is far below all ordinary numbers. -/
theorem nearest_half (hgrid : nearest p = p) (h : 2 ^ (-1000 : ℤ) ≤ p) :
    nearest (p / 2) = p / 2 := by
  obtain ⟨m, e, hlow, hhigh, rfl⟩ := exists_significand hgrid ((two_zpow_le (by norm_num)).trans h)
  have he := lt_of_two_zpow_le_significand hhigh h
  have hhalf : (m : ℚ) * 2 ^ e / 2 = (m : ℤ) * 2 ^ (e - 1) := by
    rw [show e = 1 + (e - 1) by ring, two_zpow_add, zpow_one, show 1 + (e - 1) - 1 = e - 1 by ring,
      Int.cast_natCast]
    ring
  rw [hhalf]
  exact nearest_of_grid (by rw [Nat.abs_cast]; exact_mod_cast hhigh) (by omega)

/-- **Half of a scale**, doubled, is the scale again, unless it is far below all ordinary numbers;
and it stays so far below. -/
theorem half_spec (h : Solid.validScale x) :
    (x * 0.5).isFinite ∧ 0 ≤ value (x * 0.5) ∧
      (2 * value (x * 0.5) = value x ∨
        value x < 2 ^ (-1000 : ℤ) ∧ 2 * value (x * 0.5) ≤ 2 ^ (-1000 : ℤ)) := by
  obtain ⟨hx, hpos⟩ := validScale_iff.1 h
  have hhalf : (0.5 : Float).isFinite ∧ value 0.5 = 1 / 2 := by decide +kernel
  have hproduct : value x * value 0.5 = value x / 2 := by rw [hhalf.2, mul_one_div]
  have hle : |value x * value 0.5| ≤ |value x| := by
    rw [hproduct, abs_of_pos (half_pos hpos), abs_of_pos hpos]
    exact (half_lt_self hpos).le
  obtain ⟨hfinite, -⟩ := mul_spec_of_abs_le hx hhalf.1 hx hle
  have hvalue := value_mul_of_isFinite hhalf.1 hfinite
  rw [hproduct] at hvalue
  refine ⟨hfinite, hvalue ▸ nearest_nonneg (half_pos hpos).le, ?_⟩
  rw [hvalue]
  rcases le_or_gt (2 ^ (-1000 : ℤ)) (value x) with hlarge | hsmall
  · left
    rw [nearest_half (nearest_value hx) hlarge, mul_div_cancel₀ _ two_ne_zero]
  · refine .inr ⟨hsmall, ?_⟩
    have hbound : nearest (value x / 2) ≤ 2 ^ (-1001 : ℤ) := by
      rw [← nearest_two_zpow (e := -1001) (by norm_num)]
      refine nearest_mono ?_
      rw [div_le_iff₀ two_pos, ← zpow_add_one₀ two_ne_zero]
      exact hsmall.le
    rw [show (-1000 : ℤ) = 1 + -1001 by norm_num, two_zpow_add, zpow_one]
    exact mul_le_mul_of_nonneg_left hbound two_pos.le

theorem abs_two_mul_half_lt (h : Solid.validScale x) : |2 * value (x * 0.5)| < 2 ^ (1024 : ℤ) := by
  obtain ⟨-, hnonneg, hsame | ⟨-, hsmall⟩⟩ := half_spec h
  · exact hsame ▸ abs_value_lt x
  · rw [abs_of_nonneg (mul_nonneg two_pos.le hnonneg)]
    exact hsmall.trans_lt (two_zpow_lt (by norm_num))

end Halves

end SolidScene.Double
