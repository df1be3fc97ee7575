import SolidScene.Json.Basic
import SolidScene.Proofs.Double.Error
import SolidScene.Proofs.Double.Sign

/-!
# Scaling by a power of ten

The reader multiplies or divides the digits of a number by a power of ten, which is itself a rounded
double, and rounds once more.  Each rounding moves a number by a small part of it, so a product
below `nearGreatest` stays in range (`scaleUp?_spec`).  A quotient of at least three times the half
of the least double does not vanish (`scaleDown_spec`), though it may take two divisions, the power
of ten being out of range itself.
-/

namespace SolidScene.Json

open Double

/-! ### One rounding -/

/-- Rounding moves a number above `2 ^ (-1030)` by at most a sixteenth of it. -/
theorem nearest_bounds {q : ℚ} (h : 2 ^ (-1030 : ℤ) ≤ q) :
    15 / 16 * q ≤ nearest q ∧ nearest q ≤ 17 / 16 * q := by
  have hpos : 0 < q := (two_zpow_pos _).trans_le h
  have herror : 2 ^ stepExponent q / 2 ≤ q / 16 := by
    by_cases hstep : stepExponent q = -1074
    · have hpower : (2 : ℚ) ^ (-1074 : ℤ) ≤ 2 ^ (-4 : ℤ) * 2 ^ (-1030 : ℤ) := by
        rw [← two_zpow_add]
        exact two_zpow_le (by norm_num)
      have hfine := two_zpow_pos (-1074)
      rw [show (2 : ℚ) ^ (-4 : ℤ) = 1 / 16 by norm_num] at hpower
      rw [hstep]
      linarith only [hpower, hfine, h]
    · have hle := two_zpow_stepExponent_le hpos.ne' hstep
      rw [abs_of_pos hpos, add_comm, two_zpow_add] at hle
      have hfull : (8 : ℚ) ≤ 2 ^ (52 : ℤ) := by norm_num
      have := mul_le_mul_of_nonneg_right hfull (two_zpow_pos (stepExponent q)).le
      linarith only [this, hle]
  obtain ⟨hlow, hhigh⟩ := abs_le.1 ((abs_nearest_sub_le q).trans herror)
  constructor <;> linarith only [hlow, hhigh]

/-- The relative error of one rounding. -/
theorem nearest_le_mul {q : ℚ} (h : 1 ≤ q) : nearest q ≤ (1 + 2 ^ (-53 : ℤ)) * q := by
  have hnormal : 2 ^ (-1022 : ℤ) ≤ |q| := by
    rw [abs_of_pos (by linarith)]
    exact (two_zpow_le (show (-1022 : ℤ) ≤ 0 by norm_num)).trans (by rwa [zpow_zero])
  have herror := (abs_le.1 (abs_nearest_sub_le_mul hnormal)).2
  rw [abs_of_pos (by linarith)] at herror
  linarith

theorem one_le_nearest {q : ℚ} (h : 1 ≤ q) : 1 ≤ nearest q := by
  rw [← zpow_zero (2 : ℚ)] at h ⊢
  exact two_zpow_le_nearest_of_le (by norm_num) h

/-! ### Powers of ten -/

theorem one_le_ten_pow (k : ℕ) : (1 : ℚ) ≤ 10 ^ k := one_le_pow₀ (by norm_num)

theorem ten_pow_le_greatest {k : ℕ} (hk : k ≤ greatestPower) : (10 : ℚ) ^ k ≤ greatest := by
  have hlast : 10 ^ greatestPower ≤ 9007199254740991 * 2 ^ 971 := by decide +kernel
  have hcast : ((10 ^ greatestPower : ℕ) : ℚ) ≤ (9007199254740991 * 2 ^ 971 : ℕ) :=
    Nat.cast_le.2 hlast
  rw [Nat.cast_pow, Nat.cast_mul, Nat.cast_pow, Nat.cast_ofNat, Nat.cast_ofNat,
    Nat.cast_ofNat] at hcast
  refine (pow_le_pow_right₀ (by norm_num) hk).trans (hcast.trans (le_of_eq ?_))
  rw [greatest, show (2 : ℚ) ^ 53 - 1 = 9007199254740991 by norm_num]
  rfl

/-- The next power of ten is out of range. -/
theorem two_zpow_1024_le : (2 : ℚ) ^ (1024 : ℤ) ≤ 10 ^ (greatestPower + 1) := by
  have hnext : 2 ^ 1024 ≤ 10 ^ (greatestPower + 1) := by decide +kernel
  have hcast : ((2 ^ 1024 : ℕ) : ℚ) ≤ (10 ^ (greatestPower + 1) : ℕ) := Nat.cast_le.2 hnext
  rwa [Nat.cast_pow, Nat.cast_pow, Nat.cast_ofNat, Nat.cast_ofNat] at hcast

/-- The powers of ten that are worked with are finite. -/
theorem powerOfTen_spec {k : ℕ} (hk : k ≤ greatestPower) :
    (powerOfTen k).isFinite ∧ value (powerOfTen k) = nearest (10 ^ k) := by
  have hvalue : (⟨1, k⟩ : Decimal).toRat = 10 ^ k := by
    rw [Decimal.toRat, Nat.cast_one, one_mul, zpow_natCast]
  have hrange := nearest_lt_of_le_greatest (ten_pow_le_greatest hk)
  rw [← hvalue] at hrange ⊢
  exact toFloat_spec hrange

theorem cast_le_of_lt_significandLimit {w : ℕ} (hw : w < significandLimit) : (w : ℚ) ≤ 10 ^ 20 := by
  have hlimit : significandLimit ≤ 10 ^ 20 := by decide
  exact_mod_cast hw.le.trans hlimit

/-- The digits of a number that fits into a word are read with one rounding. -/
theorem ofNat_spec {w : ℕ} (hw : w < significandLimit) :
    (Float.ofNat w).isFinite ∧ value (Float.ofNat w) = nearest w ∧
      value (Float.ofNat w) ≤ greatest := by
  have hle : (w : ℚ) ≤ greatest :=
    (cast_le_of_lt_significandLimit hw).trans (ten_pow_le_greatest (by decide))
  have hspec := float_ofScientific_spec (m := w) false 0
  simp only [Bool.false_eq_true, if_false, Int.natCast_zero, zpow_zero, mul_one] at hspec
  obtain ⟨hfinite, hvalue⟩ := hspec (nearest_lt_of_le_greatest hle)
  exact ⟨hfinite, hvalue, hvalue ▸ (nearest_mono hle).trans nearest_greatest.le⟩

theorem isInf_eq_false {x : Float} (hx : x.isFinite) : x.isInf = false := by
  have h := isReduced_unpack hx
  change x.toModel.unpack.isInf = false
  generalize x.toModel.unpack = u at h
  cases h <;> rfl

/-! ### Multiplying by a power of ten -/

section Scale

variable {w k : ℕ}

/-- A number below the range, with some room for the roundings. -/
def nearGreatest : ℚ := (2 ^ 53 - 7 / 2) * 2 ^ (971 : ℤ)

theorem nearGreatest_le : nearGreatest ≤ greatest :=
  mul_le_mul_of_nonneg_right (by norm_num) (two_zpow_pos 971).le

theorem two_roundings_le : (1 + 2 ^ (-53 : ℤ)) * (1 + 2 ^ (-53 : ℤ)) * nearGreatest ≤ greatest := by
  rw [nearGreatest, greatest, ← mul_assoc]
  exact mul_le_mul_of_nonneg_right (by norm_num) (two_zpow_pos 971).le

/-- What is to be multiplied by a power of ten stays in range. -/
theorem scaleUp?_spec (hw : 0 < w) (hlimit : w < significandLimit)
    (hrange : (w : ℚ) * 10 ^ k ≤ nearGreatest) :
    ∃ f, scaleUp? (Float.ofNat w) k = some f ∧ f.isFinite ∧
      value f = nearest (nearest w * nearest (10 ^ k)) ∧ 0 < value f := by
  have hone : (1 : ℚ) ≤ w := by exact_mod_cast hw
  have hten := one_le_ten_pow k
  have hk : k ≤ greatestPower := by
    by_contra hgt
    have hle : (10 : ℚ) ^ (greatestPower + 1) ≤ 10 ^ k :=
      pow_le_pow_right₀ (by norm_num) (Nat.lt_of_not_le hgt)
    have := le_mul_of_one_le_left (zero_le_one.trans hten) hone
    exact (greatest_lt.trans_le (two_zpow_1024_le.trans hle)).not_ge
      (this.trans (hrange.trans nearGreatest_le))
  obtain ⟨hfinite, hvalue, -⟩ := ofNat_spec hlimit
  obtain ⟨hfinite', hvalue'⟩ := powerOfTen_spec hk
  have hproduct : nearest w * nearest (10 ^ k) ≤ greatest :=
    calc nearest w * nearest (10 ^ k)
        ≤ (1 + 2 ^ (-53 : ℤ)) * w * ((1 + 2 ^ (-53 : ℤ)) * 10 ^ k) :=
          mul_le_mul (nearest_le_mul hone) (nearest_le_mul hten)
            (zero_le_one.trans (one_le_nearest hten)) (by positivity)
      _ = (1 + 2 ^ (-53 : ℤ)) * (1 + 2 ^ (-53 : ℤ)) * (w * 10 ^ k) := by ring
      _ ≤ (1 + 2 ^ (-53 : ℤ)) * (1 + 2 ^ (-53 : ℤ)) * nearGreatest :=
          mul_le_mul_of_nonneg_left hrange (by positivity)
      _ ≤ greatest := two_roundings_le
  have hlower : 1 ≤ nearest (nearest w * nearest (10 ^ k)) :=
    one_le_nearest (one_le_mul_of_one_le_of_one_le (one_le_nearest hone) (one_le_nearest hten))
  have hspec := mul_spec hfinite hfinite'
  rw [hvalue, hvalue', abs_of_pos (by linarith)] at hspec
  obtain ⟨hscaled, hscaledValue⟩ := hspec (nearest_lt_of_le_greatest hproduct)
  refine ⟨_, ?_, hscaled, hscaledValue, by linarith⟩
  rw [scaleUp?, if_pos hk]
  simp only [isInf_eq_false hscaled, Bool.false_eq_true, if_false]

/-! ### Dividing by a power of ten -/

/-- One step of a division by a power of ten. -/
theorem div_powerOfTen_spec {f : Float} (hf : f.isFinite) (hpos : 0 < value f)
    (hle : value f ≤ greatest) (hk : k ≤ greatestPower) :
    (f / powerOfTen k).isFinite ∧ value (f / powerOfTen k) = nearest (value f / nearest (10 ^ k)) ∧
      value (f / powerOfTen k) ≤ greatest := by
  obtain ⟨hfinite, hvalue⟩ := powerOfTen_spec hk
  have hten := one_le_nearest (one_le_ten_pow k)
  have hquotient : value f / nearest (10 ^ k) ≤ greatest := (div_le_self hpos.le hten).trans hle
  have hnonneg : 0 ≤ nearest (value f / nearest (10 ^ k)) :=
    nearest_nonneg (div_nonneg hpos.le (zero_le_one.trans hten))
  have hspec := div_spec hf hfinite (by rw [hvalue]; linarith)
  rw [hvalue, abs_of_nonneg hnonneg] at hspec
  obtain ⟨hfinite', hvalue'⟩ := hspec (nearest_lt_of_le_greatest hquotient)
  exact ⟨hfinite', hvalue', hvalue' ▸ (nearest_mono hquotient).trans nearest_greatest.le⟩

/-- A rounded power of ten makes a quotient smaller by at most a seventeenth of it. -/
theorem le_div_nearest_ten_pow {y : ℚ} (hy : 0 ≤ y) (k : ℕ) :
    16 / 17 * (y / 10 ^ k) ≤ y / nearest (10 ^ k) := by
  have hten := one_le_ten_pow k
  have hnormal : 2 ^ (-1030 : ℤ) ≤ (10 : ℚ) ^ k :=
    (two_zpow_le (show (-1030 : ℤ) ≤ 0 by norm_num)).trans (by rwa [zpow_zero])
  have hupper := (nearest_bounds hnormal).2
  have hpos : 0 < nearest ((10 : ℚ) ^ k) := zero_lt_one.trans_le (one_le_nearest hten)
  have hpow : (0 : ℚ) < 10 ^ k := zero_lt_one.trans_le hten
  rw [le_div_iff₀ hpos]
  calc 16 / 17 * (y / 10 ^ k) * nearest (10 ^ k)
      ≤ 16 / 17 * (y / 10 ^ k) * (17 / 16 * 10 ^ k) :=
        mul_le_mul_of_nonneg_left hupper (by positivity)
    _ = y := by
        field_simp

theorem nearest_pos_of_le {q : ℚ} (h : 2 * 2 ^ (-1075 : ℤ) ≤ q) : 0 < nearest q := by
  have hstep : (2 : ℚ) ^ (-1074 : ℤ) = 2 * 2 ^ (-1075 : ℤ) := by
    rw [show (-1074 : ℤ) = 1 + -1075 by norm_num, two_zpow_add, zpow_one]
  exact (two_zpow_pos (-1074)).trans_le (two_zpow_le_nearest_of_le le_rfl (hstep.trans_le h))

/-- The first step of a long division by a power of ten stays clear of zero. -/
theorem le_nearest_div_greatestPower {y : ℚ} (hy : 1 ≤ y) :
    15 / 17 * (y / 10 ^ greatestPower) ≤ nearest (y / nearest (10 ^ greatestPower)) := by
  have hquotient := le_div_nearest_ten_pow (zero_le_one.trans hy) greatestPower
  have hnormal : 2 ^ (-1030 : ℤ) ≤ y / nearest ((10 : ℚ) ^ greatestPower) := by
    have hpower : (2 : ℚ) ^ (-1024 : ℤ) ≤ 1 / 10 ^ greatestPower := by
      rw [zpow_neg, one_div]
      exact inv_anti₀ (by positivity) ((ten_pow_le_greatest le_rfl).trans greatest_lt.le)
    have hfine : (2 : ℚ) ^ (-1030 : ℤ) ≤ 1 / 2 * 2 ^ (-1024 : ℤ) := by
      rw [show (1 / 2 : ℚ) = 2 ^ (-1 : ℤ) by norm_num, ← two_zpow_add]
      exact two_zpow_le (by norm_num)
    have hone : 1 / 10 ^ greatestPower ≤ y / (10 : ℚ) ^ greatestPower :=
      div_le_div_of_nonneg_right hy (by positivity)
    have hpos := two_zpow_pos (-1024)
    linarith only [hquotient, hpower, hfine, hone, hpos]
  linarith only [hquotient, (nearest_bounds hnormal).1]

/-- Two steps of a division by a power of ten are enough for what is not to vanish. -/
theorem le_of_le_div_ten_pow (hlimit : w < significandLimit)
    (hlower : 3 * 2 ^ (-1075 : ℤ) ≤ (w : ℚ) / 10 ^ k) : k ≤ 2 * greatestPower := by
  by_contra hgt
  have hpow : (10 : ℚ) ^ (greatestPower + 1) * 10 ^ greatestPower ≤ 10 ^ k := by
    rw [← pow_add]
    exact pow_le_pow_right₀ (by norm_num) (by omega)
  have hsmall : (10 : ℚ) ^ 20 * 2 ^ (51 : ℤ) ≤ 10 ^ greatestPower := by
    have hdigits : (10 : ℚ) ^ 20 * 2 ^ (51 : ℤ) ≤ 10 ^ 36 := by norm_num
    exact hdigits.trans (pow_le_pow_right₀ (by norm_num) (by decide))
  have hbound : (w : ℚ) * 2 ^ (1075 : ℤ) ≤ 10 ^ k :=
    calc (w : ℚ) * 2 ^ (1075 : ℤ) ≤ 10 ^ 20 * 2 ^ (1075 : ℤ) :=
          mul_le_mul_of_nonneg_right (cast_le_of_lt_significandLimit hlimit) (two_zpow_pos _).le
      _ = 2 ^ (1024 : ℤ) * (10 ^ 20 * 2 ^ (51 : ℤ)) := by
          rw [show (1075 : ℤ) = 1024 + 51 by norm_num, two_zpow_add]
          ring
      _ ≤ 10 ^ (greatestPower + 1) * 10 ^ greatestPower :=
          mul_le_mul two_zpow_1024_le hsmall (by positivity) (by positivity)
      _ ≤ 10 ^ k := hpow
  rw [le_div_iff₀ (by positivity), zpow_neg, ← div_eq_mul_inv, div_mul_eq_mul_div,
    div_le_iff₀ (two_zpow_pos _)] at hlower
  have := pow_pos (show (0 : ℚ) < 10 by norm_num) k
  linarith only [hlower, hbound, this]

/-- What is to be divided by a power of ten does not vanish. -/
theorem scaleDown_spec (hw : 0 < w) (hlimit : w < significandLimit)
    (hlower : 3 * 2 ^ (-1075 : ℤ) ≤ (w : ℚ) / 10 ^ k) :
    (scaleDown (Float.ofNat w) k).isFinite ∧ 0 < value (scaleDown (Float.ofNat w) k) := by
  have hone : (1 : ℚ) ≤ w := by exact_mod_cast hw
  have hnormal : 2 ^ (-1030 : ℤ) ≤ (w : ℚ) :=
    (two_zpow_le (show (-1030 : ℤ) ≤ 0 by norm_num)).trans (by rwa [zpow_zero])
  obtain ⟨hfinite, hvalue, hgreatest⟩ := ofNat_spec hlimit
  have hdigits : 1 ≤ value (Float.ofNat w) := hvalue ▸ one_le_nearest hone
  have hdigits' : 15 / 16 * (w : ℚ) ≤ value (Float.ofNat w) := hvalue ▸ (nearest_bounds hnormal).1
  generalize Float.ofNat w = f at hfinite hgreatest hdigits hdigits' ⊢
  have hpos : 0 < value f := by linarith
  rw [scaleDown, scaleDown.go]
  split
  · next hk =>
    obtain ⟨hscaled, hscaledValue, -⟩ := div_powerOfTen_spec hfinite hpos hgreatest hk
    refine ⟨hscaled, hscaledValue ▸ nearest_pos_of_le ?_⟩
    have hquotient := le_div_nearest_ten_pow hpos.le k
    have hfirst : 15 / 16 * ((w : ℚ) / 10 ^ k) ≤ value f / 10 ^ k := by
      rw [← mul_div_assoc]
      exact div_le_div_of_nonneg_right hdigits' (by positivity)
    have := two_zpow_pos (-1075)
    linarith only [hlower, hquotient, hfirst, this]
  · next hk =>
    have hnonzero : (f == 0.0) = false := by
      rw [← Bool.not_eq_true, beq_iff hfinite isFinite_zero, value_zero]
      exact hpos.ne'
    have hle := le_of_le_div_ten_pow hlimit hlower
    obtain ⟨hscaled, hscaledValue, hscaledLe⟩ := div_powerOfTen_spec hfinite hpos hgreatest le_rfl
    have hfirst := hscaledValue ▸ le_nearest_div_greatestPower hdigits
    have hscaledPos : 0 < value (f / powerOfTen greatestPower) :=
      lt_of_lt_of_le (by positivity) hfirst
    have hrest : k - greatestPower ≤ greatestPower := by omega
    obtain ⟨hlast, hlastValue, -⟩ := div_powerOfTen_spec hscaled hscaledPos hscaledLe hrest
    rw [hnonzero, if_neg Bool.false_ne_true, scaleDown.go, if_pos hrest]
    refine ⟨hlast, hlastValue ▸ nearest_pos_of_le ?_⟩
    have hquotient := le_div_nearest_ten_pow hscaledPos.le (k - greatestPower)
    have hsplit : (10 : ℚ) ^ k = 10 ^ greatestPower * 10 ^ (k - greatestPower) := by
      rw [← pow_add, Nat.add_sub_cancel' (Nat.le_of_not_le hk)]
    have hboth : 15 / 17 * (15 / 16) * ((w : ℚ) / 10 ^ k) ≤
        value (f / powerOfTen greatestPower) / 10 ^ (k - greatestPower) := by
      rw [hsplit, ← div_div, ← mul_div_assoc]
      refine div_le_div_of_nonneg_right (le_trans ?_ hfirst) (by positivity)
      rw [mul_assoc, ← mul_div_assoc]
      exact mul_le_mul_of_nonneg_left (div_le_div_of_nonneg_right hdigits' (by positivity))
        (by norm_num)
    have := two_zpow_pos (-1075)
    linarith only [hlower, hquotient, hboth, this]

end Scale

end SolidScene.Json
