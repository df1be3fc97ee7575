import SolidScene.Proofs.Double.Product
import SolidScene.Shape

/-!
# Errors that add up

A length goes through a few products and quotients on its way from the script to the scene and back.
Each rounding adds an error of at most one unit in the last place, so after a few of them the double
is still near the number it would be without any rounding (`IsNear`).  If that number is a whole
number of hundredths, and not too large a one, then these are the hundredths that a script shows
(`IsNear.hundredths_eq`).
-/

namespace SolidScene.Double

/-! ### Signs -/

theorem isFinite_zero : (0.0 : Float).isFinite := by decide

@[simp] theorem value_zero : value 0.0 = 0 := rfl

theorem zero_lt_iff {x : Float} (hx : x.isFinite) : 0.0 < x ↔ 0 < value x := by
  rw [lt_iff isFinite_zero hx, value_zero]

/-- A valid scale is one that stands for a number above zero. -/
theorem validScale_iff {x : Float} : Solid.validScale x ↔ x.isFinite ∧ 0 < value x := by
  rw [Solid.validScale, Bool.and_eq_true, decide_eq_true_iff]
  exact and_congr_right fun hx => zero_lt_iff hx

/-! ### Near a number -/

/-- A double by which a length may be multiplied or divided without much change of its size. -/
structure IsFactor (y : Float) : Prop where
  finite : y.isFinite
  lower : 2 ^ (-10 : ℤ) ≤ value y
  upper : value y ≤ 2 ^ (10 : ℤ)

theorem IsFactor.pos {y : Float} (h : IsFactor y) : 0 < value y :=
  (two_zpow_pos _).trans_le h.lower

/-- The sizes of a factor are told from its exact value. -/
theorem isFactor_of_ofFloat? {y : Float} (h : (ExactValue.ofFloat? y).any fun v =>
    !v.negative && v.denominator ≤ 1024 * v.numerator && v.numerator ≤ 1024 * v.denominator) :
    IsFactor y := by
  obtain ⟨v, hv, hcheck⟩ := (Option.any_eq_true _ _).1 h
  simp only [Bool.and_eq_true, Bool.not_eq_true', decide_eq_true_iff] at hcheck
  obtain ⟨⟨hsign, hlower⟩, hupper⟩ := hcheck
  obtain ⟨hfinite, hvalue⟩ := value_eq_div hv hsign
  have hden : (0 : ℚ) < v.denominator := by exact_mod_cast v.denominator_pos
  refine ⟨hfinite, ?_, ?_⟩
  · have : (v.denominator : ℚ) ≤ 1024 * v.numerator := by exact_mod_cast hlower
    rw [hvalue, le_div_iff₀ hden]
    norm_num
    linarith
  · rw [hvalue, div_le_iff₀ hden]
    norm_num
    exact_mod_cast hupper

/-- A double that `n` roundings have led to from a number of ordinary size. -/
structure IsNear (n : ℕ) (x : Float) (q : ℚ) : Prop where
  finite : x.isFinite
  close : |value x - q| ≤ n * 2 ^ (-52 : ℤ) * q
  lower : 2 ^ (-(50 + 10 * n) : ℤ) ≤ q
  upper : q ≤ 2 ^ (50 + 10 * n : ℤ)

/-- The number of roundings for which errors are added up. -/
def mostRoundings : ℕ := 8

/-- The number of hundredths up to which errors stay below half of one. -/
def mostHundredths : ℕ := 2 ^ 47

section Near

variable {n : ℕ} {x y : Float} {q r : ℚ}

theorem error_le_half (hn : n ≤ mostRoundings) (hq : 0 ≤ q) : n * 2 ^ (-52 : ℤ) * q ≤ q / 2 := by
  have hle : (n : ℚ) ≤ 8 := by exact_mod_cast hn
  have : (n : ℚ) * 2 ^ (-52 : ℤ) ≤ 1 / 2 := by
    norm_num
    linarith
  nlinarith

/-- One more rounding. -/
theorem abs_nearest_sub_le_of_close (hn : n ≤ mostRoundings) (hq : 2 ^ (-500 : ℤ) ≤ q)
    (h : |r - q| ≤ n * 2 ^ (-52 : ℤ) * q) :
    |nearest r - q| ≤ (n + 1 : ℕ) * 2 ^ (-52 : ℤ) * q := by
  have hpos : 0 < q := (two_zpow_pos _).trans_le hq
  have hhalf := error_le_half hn hpos.le
  obtain ⟨hlow, hhigh⟩ := abs_le.1 (h.trans hhalf)
  have hr : 0 < r := by linarith
  have hnormal : 2 ^ (-1022 : ℤ) ≤ |r| := by
    rw [abs_of_pos hr]
    have hpower : (2 : ℚ) ^ (-501 : ℤ) = 2 ^ (-500 : ℤ) / 2 := by
      rw [show (-501 : ℤ) = -500 + -1 by norm_num, two_zpow_add, zpow_neg_one, div_eq_mul_inv]
    have := two_zpow_le (show (-1022 : ℤ) ≤ -501 by norm_num)
    linarith
  have hrounding := abs_nearest_sub_le_mul hnormal
  rw [abs_of_pos hr] at hrounding
  calc |nearest r - q| ≤ |nearest r - r| + |r - q| := abs_sub_le _ _ _
    _ ≤ 2 ^ (-53 : ℤ) * (2 * q) + n * 2 ^ (-52 : ℤ) * q := by
        refine add_le_add (hrounding.trans ?_) h
        exact mul_le_mul_of_nonneg_left (by linarith) (two_zpow_pos _).le
    _ = (n + 1 : ℕ) * 2 ^ (-52 : ℤ) * q := by
        rw [show (-53 : ℤ) = -52 + -1 by norm_num, two_zpow_add, zpow_neg_one]
        push_cast
        ring

/-- What is rounded from near a number of ordinary size is in range. -/
theorem abs_nearest_lt_of_close (hn : n + 1 ≤ mostRoundings) (hlower : 2 ^ (-500 : ℤ) ≤ q)
    (hupper : q ≤ 2 ^ (500 : ℤ)) (h : |r - q| ≤ n * 2 ^ (-52 : ℤ) * q) :
    |nearest r| < 2 ^ (1024 : ℤ) := by
  have hpos : 0 < q := (two_zpow_pos _).trans_le hlower
  have hclose := abs_nearest_sub_le_of_close (Nat.le_of_succ_le hn) hlower h
  obtain ⟨hlow, hhigh⟩ := abs_le.1 (hclose.trans (error_le_half hn hpos.le))
  rw [abs_of_pos (by linarith only [hlow, hpos])]
  calc nearest r < 2 * q := by linarith only [hhigh, hpos]
    _ ≤ 2 * 2 ^ (500 : ℤ) := mul_le_mul_of_nonneg_left hupper zero_le_two
    _ = 2 ^ (501 : ℤ) := by rw [show (501 : ℤ) = 1 + 500 by norm_num, two_zpow_add, zpow_one]
    _ < 2 ^ (1024 : ℤ) := two_zpow_lt (by norm_num)

namespace IsNear

theorem pos (h : IsNear n x q) : 0 < q := (two_zpow_pos _).trans_le h.lower

theorem value_pos (h : IsNear n x q) (hn : n ≤ mostRoundings) : 0 < value x := by
  have := abs_le.1 (h.close.trans (error_le_half hn h.pos.le))
  linarith [h.pos]

theorem validScale (h : IsNear n x q) (hn : n ≤ mostRoundings) : Solid.validScale x :=
  validScale_iff.2 ⟨h.finite, h.value_pos hn⟩

theorem mono {m : ℕ} (h : IsNear n x q) (hm : n ≤ m) : IsNear m x q := by
  refine ⟨h.finite, h.close.trans ?_, (two_zpow_le (by omega)).trans h.lower,
    h.upper.trans (two_zpow_le (by omega))⟩
  have hle : (n : ℚ) ≤ m := by exact_mod_cast hm
  exact mul_le_mul_of_nonneg_right (mul_le_mul_of_nonneg_right hle (two_zpow_pos _).le) h.pos.le

/-- The next rounding, of what lies as close to the next number. -/
theorem next {z : Float} (hn : n + 1 ≤ mostRoundings)
    (hlower : 2 ^ (-(50 + 10 * (n + 1 : ℕ)) : ℤ) ≤ q) (hupper : q ≤ 2 ^ (50 + 10 * (n + 1 : ℕ) : ℤ))
    (hclose : |r - q| ≤ n * 2 ^ (-52 : ℤ) * q)
    (hspec : |nearest r| < 2 ^ (1024 : ℤ) → z.isFinite ∧ value z = nearest r) :
    IsNear (n + 1) z q := by
  have hn' : n + 1 ≤ 8 := hn
  have hlow : 2 ^ (-500 : ℤ) ≤ q := (two_zpow_le (by omega)).trans hlower
  have hhigh : q ≤ 2 ^ (500 : ℤ) := hupper.trans (two_zpow_le (by omega))
  obtain ⟨hfinite, hvalue⟩ := hspec (abs_nearest_lt_of_close hn hlow hhigh hclose)
  refine ⟨hfinite, ?_, hlower, hupper⟩
  rw [hvalue]
  exact abs_nearest_sub_le_of_close (Nat.le_of_succ_le hn) hlow hclose

theorem mul_bounds (h : IsNear n x q) (hy : IsFactor y) :
    2 ^ (-(50 + 10 * (n + 1 : ℕ)) : ℤ) ≤ q * value y ∧
      q * value y ≤ 2 ^ (50 + 10 * (n + 1 : ℕ) : ℤ) := by
  constructor
  · rw [show (-(50 + 10 * (n + 1 : ℕ)) : ℤ) = -(50 + 10 * n) + -10 by push_cast; ring, two_zpow_add]
    exact mul_le_mul h.lower hy.lower (two_zpow_pos _).le h.pos.le
  · rw [show (50 + 10 * (n + 1 : ℕ) : ℤ) = 50 + 10 * n + 10 by push_cast; ring, two_zpow_add]
    exact mul_le_mul h.upper hy.upper hy.pos.le (two_zpow_pos _).le

theorem div_bounds (h : IsNear n x q) (hy : IsFactor y) :
    2 ^ (-(50 + 10 * (n + 1 : ℕ)) : ℤ) ≤ q / value y ∧
      q / value y ≤ 2 ^ (50 + 10 * (n + 1 : ℕ) : ℤ) := by
  constructor
  · rw [le_div_iff₀ hy.pos]
    calc _ ≤ (2 : ℚ) ^ (-(50 + 10 * (n + 1 : ℕ)) : ℤ) * 2 ^ (10 : ℤ) :=
          mul_le_mul_of_nonneg_left hy.upper (two_zpow_pos _).le
      _ = 2 ^ (-(50 + 10 * n) : ℤ) := by
          rw [← two_zpow_add]
          congr 1
          push_cast
          ring
      _ ≤ q := h.lower
  · rw [div_le_iff₀ hy.pos]
    calc q ≤ 2 ^ (50 + 10 * n : ℤ) := h.upper
      _ = (2 : ℚ) ^ (50 + 10 * (n + 1 : ℕ) : ℤ) * 2 ^ (-10 : ℤ) := by
          rw [← two_zpow_add]
          congr 1
          push_cast
          ring
      _ ≤ _ := mul_le_mul_of_nonneg_left hy.lower (two_zpow_pos _).le

theorem close_mul (h : IsNear n x q) (hy : IsFactor y) :
    |value x * value y - q * value y| ≤ n * 2 ^ (-52 : ℤ) * (q * value y) := by
  rw [← sub_mul, abs_mul, abs_of_pos hy.pos, ← mul_assoc]
  exact mul_le_mul_of_nonneg_right h.close hy.pos.le

theorem mul (h : IsNear n x q) (hy : IsFactor y) (hn : n + 1 ≤ mostRoundings) :
    IsNear (n + 1) (x * y) (q * value y) := by
  obtain ⟨hlower, hupper⟩ := h.mul_bounds hy
  exact next hn hlower hupper (h.close_mul hy) (mul_spec h.finite hy.finite)

theorem factor_mul (h : IsNear n x q) (hy : IsFactor y) (hn : n + 1 ≤ mostRoundings) :
    IsNear (n + 1) (y * x) (q * value y) := by
  obtain ⟨hlower, hupper⟩ := h.mul_bounds hy
  refine next hn hlower hupper (h.close_mul hy) ?_
  rw [mul_comm (value x)]
  exact mul_spec hy.finite h.finite

theorem div (h : IsNear n x q) (hy : IsFactor y) (hn : n + 1 ≤ mostRoundings) :
    IsNear (n + 1) (x / y) (q / value y) := by
  obtain ⟨hlower, hupper⟩ := h.div_bounds hy
  refine next hn hlower hupper ?_ (div_spec h.finite hy.finite hy.pos.ne')
  rw [← sub_div, abs_div, abs_of_pos hy.pos, ← mul_div_assoc]
  exact div_le_div_of_nonneg_right h.close hy.pos.le

/-- The script shows the hundredths that it would show without any rounding. -/
theorem hundredths_eq {h : ℕ} (hx : IsNear n x (h / 100)) (hn : n ≤ mostRoundings)
    (hle : h ≤ mostHundredths) : hundredths x = h := by
  have hn' : (n : ℚ) ≤ 8 := by exact_mod_cast hn
  have hle' : (h : ℚ) ≤ 2 ^ 47 := by exact_mod_cast hle
  have herror : (n : ℚ) * 2 ^ (-52 : ℤ) * h ≤ 8 * 2 ^ (-52 : ℤ) * 2 ^ 47 := by gcongr
  rw [Double.hundredths_eq hx.finite]
  refine roundEven_eq_of_abs_lt ?_
  have hscaled : |((h : ℤ) : ℚ) - 100 * value x| = 100 * |value x - h / 100| := by
    have hhundred : (h : ℚ) - 100 * value x = -(100 * (value x - h / 100)) := by ring
    rw [Int.cast_natCast, hhundred, abs_neg, abs_mul, abs_of_pos (by norm_num : (0 : ℚ) < 100)]
  rw [hscaled]
  have hclose := hx.close
  norm_num at herror hclose ⊢
  linarith

end IsNear

end Near

/-- The literal of some hundredths is read with one rounding. -/
theorem isNear_ofHundredths {h : ℕ} (hpos : 1 ≤ h) (hle : h ≤ mostHundredths) :
    IsNear 1 (Decimal.ofHundredths h).toFloat (h / 100) := by
  have hpos' : (1 : ℚ) ≤ h := by exact_mod_cast hpos
  have hle' : (h : ℚ) ≤ 2 ^ 47 := by exact_mod_cast hle
  have hvalue : (Decimal.ofHundredths h).toRat = h / 100 := by
    rw [Decimal.toRat]
    norm_num [Decimal.ofHundredths, div_eq_mul_inv]
  refine IsNear.next (n := 0) (r := h / 100) (by decide) ?_ ?_ (by simp) fun hrange => ?_
  · norm_num
    linarith
  · norm_num
    linarith
  · rw [← hvalue] at hrange ⊢
    exact toFloat_spec ((le_abs_self _).trans_lt hrange)

/-! ### Below a bound -/

/-- A double from zero up to a power of two. -/
structure IsBounded (a : ℕ) (x : Float) : Prop where
  finite : x.isFinite
  nonneg : 0 ≤ value x
  le : value x ≤ 2 ^ a

/-- A bound is told from the exact value. -/
theorem isBounded_of_ofFloat? {a : ℕ} {y : Float} (h : (ExactValue.ofFloat? y).any fun v =>
    !v.negative && v.numerator ≤ 2 ^ a * v.denominator) : IsBounded a y := by
  obtain ⟨v, hv, hcheck⟩ := (Option.any_eq_true _ _).1 h
  simp only [Bool.and_eq_true, Bool.not_eq_true', decide_eq_true_iff] at hcheck
  obtain ⟨hsign, hle⟩ := hcheck
  obtain ⟨hfinite, hvalue⟩ := value_eq_div hv hsign
  have hden : (0 : ℚ) < v.denominator := by exact_mod_cast v.denominator_pos
  refine ⟨hfinite, ?_, ?_⟩
  · rw [hvalue]
    positivity
  · rw [hvalue, div_le_iff₀ hden]
    exact_mod_cast hle

theorem IsFactor.isBounded {y : Float} (h : IsFactor y) : IsBounded 10 y :=
  ⟨h.finite, h.pos.le, h.upper⟩

theorem IsNear.isBounded {n : ℕ} {x : Float} {q : ℚ} (h : IsNear n x q) (hn : n ≤ mostRoundings) :
    IsBounded (51 + 10 * n) x := by
  have hclose := abs_le.1 (h.close.trans (error_le_half hn h.pos.le))
  have hupper := h.upper
  refine ⟨h.finite, (h.value_pos hn).le, ?_⟩
  rw [← zpow_natCast, show ((51 + 10 * n : ℕ) : ℤ) = 1 + (50 + 10 * n) by push_cast; ring,
    two_zpow_add, zpow_one]
  linarith [hclose.2, h.pos]

namespace IsBounded

variable {a b : ℕ} {x y : Float}

theorem mono (hx : IsBounded a x) (h : a ≤ b) : IsBounded b x :=
  ⟨hx.finite, hx.nonneg, hx.le.trans (pow_le_pow_right₀ (by norm_num) h)⟩

theorem of_le (hy : IsBounded a y) (hx : x.isFinite) (hnonneg : 0 ≤ value x) (h : x ≤ y) :
    IsBounded a x :=
  ⟨hx, hnonneg, ((le_iff hx hy.finite).1 h).trans hy.le⟩

theorem mul_spec (hx : IsBounded a x) (hy : IsBounded b y) (h : a + b < 1024) :
    IsBounded (a + b) (x * y) ∧ value (x * y) = nearest (value x * value y) := by
  have hnonneg : 0 ≤ nearest (value x * value y) :=
    nearest_nonneg (mul_nonneg hx.nonneg hy.nonneg)
  have hle : nearest (value x * value y) ≤ 2 ^ (a + b) := by
    have hpower := nearest_two_zpow (show -1074 ≤ ((a + b : ℕ) : ℤ) by omega)
    rw [zpow_natCast] at hpower
    rw [← hpower, pow_add]
    exact nearest_mono (mul_le_mul hx.le hy.le hy.nonneg (by positivity))
  have hrange : |nearest (value x * value y)| < 2 ^ (1024 : ℤ) := by
    rw [abs_of_nonneg hnonneg]
    refine lt_of_le_of_lt hle ?_
    rw [← zpow_natCast]
    exact two_zpow_lt (by omega)
  obtain ⟨hfinite, hvalue⟩ := Double.mul_spec hx.finite hy.finite hrange
  exact ⟨⟨hfinite, hvalue ▸ hnonneg, hvalue ▸ hle⟩, hvalue⟩

theorem mul (hx : IsBounded a x) (hy : IsBounded b y) (h : a + b < 1024) :
    IsBounded (a + b) (x * y) := (hx.mul_spec hy h).1

/-- A quotient by a double from one on stays in range. -/
theorem isFinite_div (hx : IsBounded a x) (hy : y.isFinite) (hone : 1 ≤ value y) :
    (x / y).isFinite := by
  have hpos : 0 < value y := one_pos.trans_le hone
  refine (div_spec hx.finite hy hpos.ne' ?_).1
  rw [abs_of_nonneg (nearest_nonneg (div_nonneg hx.nonneg hpos.le))]
  calc nearest (value x / value y) ≤ nearest (value x) := nearest_mono (div_le_self hx.nonneg hone)
    _ = value x := nearest_value hx.finite
    _ < 2 ^ (1024 : ℤ) := (le_abs_self _).trans_lt (abs_value_lt x)

theorem value_mul (hx : IsBounded a x) (hy : IsBounded b y) (h : a + b < 1024) :
    value (x * y) = nearest (value x * value y) := (hx.mul_spec hy h).2

/-- Products below a bound keep the order of their factors. -/
theorem value_mul_le {x' y' : Float} (hx : IsBounded a x) (hy : IsBounded b y)
    (hx' : IsBounded a x') (hy' : IsBounded b y') (h : a + b < 1024) (hxx' : value x ≤ value x')
    (hyy' : value y ≤ value y') : value (x * y) ≤ value (x' * y') := by
  rw [hx.value_mul hy h, hx'.value_mul hy' h]
  exact nearest_mono (mul_le_mul hxx' hyy' hy.nonneg hx'.nonneg)

theorem hundredths_mono (hx : IsBounded a x) (hy : IsBounded b y) (h : value x ≤ value y) :
    hundredths x ≤ hundredths y := by
  rw [hundredths_eq hx.finite, hundredths_eq hy.finite]
  exact roundEven_mono (mul_le_mul_of_nonneg_left h (by norm_num))

theorem hundredths_nonneg (hx : IsBounded a x) : 0 ≤ hundredths x := by
  rw [hundredths_eq hx.finite]
  exact roundEven_nonneg (mul_nonneg (by norm_num) hx.nonneg)

theorem hundredths_le (hx : IsBounded a x) : hundredths x ≤ 100 * 2 ^ a := by
  rw [hundredths_eq hx.finite, ← roundEven_intCast (100 * 2 ^ a)]
  refine roundEven_mono ?_
  push_cast
  exact mul_le_mul_of_nonneg_left hx.le (by norm_num)

end IsBounded

end SolidScene.Double
