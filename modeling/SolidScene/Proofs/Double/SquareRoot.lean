import SolidScene.Proofs.Double.Product

/-!
# Square roots of doubles

The root of a significand is cut off at the point, and an integer comparison tells on which side of
one half the rest is; one half itself is never met.  Any number on that side stands for the root
when it is rounded (`exists_rootInterval`).  So the root of a double, rounded, is known by its order
among all rational numbers: it is not below the rounded `r` when `r * r` is not above the double,
and not above it when `r * r` is not below (`IsRoundedRoot`, `sqrt_spec`).

A square that has been rounded still has its side as root (`IsRoundedRoot.eq_of_square`): rounding
moves a square by less than three quarters of a step of its side times the side.  A square of a
square is in range up to the last double below `2 ^ 256` (`nearest_fourth_power_lt`).
-/

namespace SolidScene.Double

open Float.Model
open Float.Model.UnpackedFloat (Sign Accuracy ExtendedMantissa roundWithAccuracy sqrtCore)

/-! ### Roots of natural numbers, cut off -/

/-- How the root of a natural number goes on after the point. -/
def rootAccuracy (c : ℕ) : Accuracy :=
  if c - c.sqrt * c.sqrt = 0 then .exact
  else .inexact (if c - c.sqrt * c.sqrt ≤ c.sqrt then .lt else .gt)

section Roots

variable {m c : ℕ} {r : ℚ}

/-- Less than half a step above a significand. -/
theorem represents_below_half (hlow : m < r) (hhigh : r < m + 1 / 2) :
    Represents (.ofMantissaAndAccuracy m (.inexact .lt)) r :=
  ⟨2 * (r - m), by linarith, by linarith, iff_of_true rfl (by linarith), by
    rw [ExtendedMantissa.ofMantissaAndAccuracy, Bool.toNat_false]
    push_cast
    ring⟩

/-- More than half a step above a significand. -/
theorem represents_above_half (hlow : m + 1 / 2 < r) (hhigh : r < m + 1) :
    Represents (.ofMantissaAndAccuracy m (.inexact .gt)) r :=
  ⟨2 * (r - m) - 1, by linarith, by linarith, iff_of_true rfl (by linarith), by
    rw [ExtendedMantissa.ofMantissaAndAccuracy, Bool.toNat_true]
    push_cast
    ring⟩

/-- A root that is not whole lies between two numbers, and whatever lies between them stands for
it. -/
theorem exists_rootInterval (hc : c.sqrt * c.sqrt ≠ c) : ∃ low high : ℚ,
    c.sqrt ≤ low ∧ low < high ∧ low * low < c ∧ c < high * high ∧
      ∀ r, low < r → r < high → Represents (.ofMantissaAndAccuracy c.sqrt (rootAccuracy c)) r := by
  have hbelow := Nat.sqrt_le c
  have habove := Nat.lt_succ_sqrt c
  rw [rootAccuracy]
  generalize c.sqrt = root at *
  rw [if_neg (by omega)]
  split
  · next hrest =>
    -- The rest is at most the root, so the root and a half has a greater square.
    refine ⟨root, root + 1 / 2, le_rfl, by linarith, ?_, ?_, fun r => represents_below_half⟩
    · exact_mod_cast lt_of_le_of_ne hbelow hc
    · have : (c : ℚ) ≤ root * root + root := by exact_mod_cast (by omega : c ≤ root * root + root)
      linarith
  · next hrest =>
    refine ⟨root + 1 / 2, root + 1, by linarith, by linarith, ?_, ?_,
      fun r => represents_above_half⟩
    · have : (root : ℚ) * root + root + 1 ≤ c := by
        exact_mod_cast (by omega : root * root + root + 1 ≤ c)
      linarith
    · exact_mod_cast habove

/-- A number whose square is not above another number has one above it that stands for the root. -/
theorem exists_represents_ge (hr : 0 ≤ r) (h : r * r ≤ c) : ∃ q, r ≤ q ∧ c.sqrt ≤ q ∧
    Represents (.ofMantissaAndAccuracy c.sqrt (rootAccuracy c)) q := by
  by_cases hc : c.sqrt * c.sqrt = c
  · refine ⟨c.sqrt, ?_, le_rfl, ?_⟩
    · rw [mul_self_le_mul_self_iff hr (Nat.cast_nonneg _)]
      exact_mod_cast h.trans_eq (by exact_mod_cast hc.symm)
    · rw [rootAccuracy, hc, Nat.sub_self, if_pos rfl]
      exact .ofNat _
  · obtain ⟨low, high, hroot, hlt, -, hhigh, hrepresents⟩ := exists_rootInterval hc
    have hroot0 : (0 : ℚ) ≤ c.sqrt := Nat.cast_nonneg _
    have hrhigh : r < high := by
      rw [mul_self_lt_mul_self_iff hr (by linarith)]
      exact h.trans_lt hhigh
    refine ⟨max r ((low + high) / 2), le_max_left _ _, ?_, hrepresents _ ?_ ?_⟩
    · exact le_max_of_le_right (by linarith)
    · exact lt_max_of_lt_right (by linarith)
    · exact max_lt hrhigh (by linarith)

/-- A number whose square is not below another number has one below it that stands for the root. -/
theorem exists_represents_le (hr : 0 ≤ r) (h : c ≤ r * r) : ∃ q, q ≤ r ∧ c.sqrt ≤ q ∧
    Represents (.ofMantissaAndAccuracy c.sqrt (rootAccuracy c)) q := by
  by_cases hc : c.sqrt * c.sqrt = c
  · refine ⟨c.sqrt, ?_, le_rfl, ?_⟩
    · rw [mul_self_le_mul_self_iff (Nat.cast_nonneg _) hr]
      exact le_trans (by exact_mod_cast hc.le) h
    · rw [rootAccuracy, hc, Nat.sub_self, if_pos rfl]
      exact .ofNat _
  · obtain ⟨low, high, hroot, hlt, hlow, -, hrepresents⟩ := exists_rootInterval hc
    have hroot0 : (0 : ℚ) ≤ c.sqrt := Nat.cast_nonneg _
    have hlowr : low < r := by
      rw [mul_self_lt_mul_self_iff (by linarith) hr]
      exact hlow.trans_le h
    refine ⟨min r ((low + high) / 2), min_le_left _ _, ?_, hrepresents _ ?_ ?_⟩
    · exact le_min (by linarith) (by linarith)
    · exact lt_min hlowr (by linarith)
    · exact min_lt_of_right_lt (by linarith)

end Roots

/-! ### Roots of unpacked doubles -/

/-- A number is the rounded root of another one, so far as the order of rational numbers tells. -/
structure IsRoundedRoot (q v : ℚ) : Prop where
  le : ∀ r, 0 ≤ r → r * r ≤ q → nearest r ≤ v
  ge : ∀ r, 0 ≤ r → q ≤ r * r → v ≤ nearest r

section Unpacked

variable {m : ℕ} {e : ℤ}

/-- The significand of which the root is taken is brought to an even exponent, and has digits
enough. -/
theorem sqrtCore_spec (hm : 0 < m) : ∃ (c : ℕ) (t : ℤ),
    sqrtCore .binary64 m e = (c.sqrt, t, rootAccuracy c) ∧
      (m : ℚ) * 2 ^ e = c * (2 ^ t * 2 ^ t) ∧ 0 < c ∧ (t ≤ -1074 ∨ 2 ^ 52 ≤ c.sqrt) := by
  set t := min (e.ediv 2) (Format.binary64.targetExponent ((totalExponent m e + 1).ediv 2)) with ht
  have hediv : e.ediv 2 = e / 2 := rfl
  obtain ⟨k, hk⟩ := Int.eq_ofNat_of_zero_le (show 0 ≤ e - 2 * t by omega)
  refine ⟨m * 2 ^ k, t, ?_, ?_, Nat.mul_pos hm (Nat.two_pow_pos k), ?_⟩
  · simp only [sqrtCore, ← ht, hk, Int.toNat_natCast, Nat.shiftLeft_eq]
    rfl
  · rw [← two_zpow_add, show e = k + (t + t) by omega, two_zpow_add, zpow_natCast]
    push_cast
    ring
  · refine or_iff_not_imp_left.2 fun hcoarse => ?_
    have htarget : t ≤ (m.log2 + e + 2) / 2 - 53 := by
      have hle := ht ▸ min_le_right (e.ediv 2) _
      simp only [Format.targetExponent, totalExponent, Format.mantissaBits,
        Format.minExponent] at hle
      have hediv' (a : ℤ) : a.ediv 2 = a / 2 := rfl
      rw [hediv'] at hle
      omega
    have hbits : 104 ≤ (m * 2 ^ k).log2 := by
      rw [log2_mul_two_pow hm]
      omega
    rw [Nat.le_sqrt, ← pow_add]
    exact (Nat.pow_le_pow_right two_pos hbits).trans
      (Nat.log2_self_le (Nat.mul_pos hm (Nat.two_pow_pos k)).ne')

/-- The root of a finite number, in any form. -/
theorem sqrt_finite_spec (hm : 0 < m) :
    let u := UnpackedFloat.sqrt .binary64 (.finite .positive m e hm)
    IsReduced u ∧ IsRoundedRoot (m * 2 ^ e) (unpackedValue u) := by
  obtain ⟨c, t, hcore, hq, hc, hfull⟩ := sqrtCore_spec (e := e) hm
  have hsqrt : UnpackedFloat.sqrt .binary64 (.finite .positive m e hm) =
      roundWithAccuracy .binary64 .positive c.sqrt t (rootAccuracy c) := by
    simp only [UnpackedFloat.sqrt, hcore]
  have hstep := two_zpow_pos t
  have hroot : (1 : ℚ) ≤ c.sqrt := by exact_mod_cast Nat.sqrt_pos.2 hc
  -- Every number that the root is represented by gives the same result.
  have hround {r : ℚ} (hle : c.sqrt ≤ r)
      (h : Represents (.ofMantissaAndAccuracy c.sqrt (rootAccuracy c)) r) :=
    roundWithAccuracy_spec (s := .positive) (e := t) (by linarith) h (by
      rcases hfull with hfine | hfull
      · exact hfine.trans (neg_1074_le_stepExponent _)
      · refine le_stepExponent ?_
        have hwide : (2 : ℚ) ^ (52 : ℤ) ≤ r := le_trans (by exact_mod_cast hfull) hle
        rw [abs_of_pos (mul_pos (by linarith) hstep), add_comm, two_zpow_add]
        exact mul_le_mul_of_nonneg_right hwide hstep.le)
  have hscale (r : ℚ) : r * r = r / 2 ^ t * (r / 2 ^ t) * (2 ^ t * 2 ^ t) := by
    field_simp
  rw [hsqrt, hq]
  refine ⟨?_, fun r hr hle => ?_, fun r hr hge => ?_⟩
  · obtain ⟨q, -, hle, h⟩ := exists_represents_ge (c := c) le_rfl (by simp)
    exact (hround hle h).1
  · rw [hscale r] at hle
    obtain ⟨q, hrq, hle, h⟩ := exists_represents_ge (div_nonneg hr hstep.le)
      (le_of_mul_le_mul_right hle (mul_pos hstep hstep))
    rw [(hround hle h).2, signFactor_positive, one_mul]
    exact nearest_mono ((div_le_iff₀ hstep).1 hrq)
  · rw [hscale r] at hge
    obtain ⟨q, hqr, hle, h⟩ := exists_represents_le (div_nonneg hr hstep.le)
      (le_of_mul_le_mul_right hge (mul_pos hstep hstep))
    rw [(hround hle h).2, signFactor_positive, one_mul]
    exact nearest_mono ((le_div_iff₀ hstep).1 hqr)

end Unpacked

/-- The root of a number in reduced form that is not below zero. -/
theorem IsReduced.sqrt_spec {u : UnpackedFloat} (hu : IsReduced u) (hnonneg : 0 ≤ unpackedValue u) :
    IsReduced (UnpackedFloat.sqrt .binary64 u) ∧
      IsRoundedRoot (unpackedValue u) (unpackedValue (UnpackedFloat.sqrt .binary64 u)) := by
  cases hu with
  | zero s =>
    refine ⟨.zero s, fun r hr hle => ?_, fun r hr hge => nearest_nonneg hr⟩
    rw [unpackedValue_zero] at hle
    rw [mul_self_eq_zero.1 (hle.antisymm (mul_self_nonneg r)), nearest_zero]
    exact le_rfl
  | @finite s m e h hm =>
    cases s with
    | negative =>
      have hpos : (0 : ℚ) < m * 2 ^ e := by positivity
      rw [unpackedValue_finite, signFactor_negative] at hnonneg
      linarith
    | positive =>
      rw [unpackedValue_finite, signFactor_positive, one_mul]
      exact sqrt_finite_spec hm

/-! ### Squares that are rounded -/

section Squares

variable {m : ℕ} {e : ℤ}

/-- Less than half a step from a number of 53 bits there is no other one to round to. -/
theorem nearest_of_offset {t : ℚ} (he : -1074 ≤ e) (ht : |t| < 1 / 2) (hlow : 2 ^ 52 ≤ m + t)
    (hhigh : m + t < 2 ^ 53) : nearest ((m + t) * 2 ^ e) = m * 2 ^ e := by
  have hstep := two_zpow_pos e
  have hpos : 0 < (m + t) * 2 ^ e := mul_pos (by linarith) hstep
  have hexponent : stepExponent ((m + t) * 2 ^ e) = e := by
    refine stepExponent_eq hpos.ne' he ?_ (.inr ?_)
    · rw [abs_of_pos hpos, add_comm e, two_zpow_add]
      exact mul_lt_mul_of_pos_right hhigh hstep
    · rw [abs_of_pos hpos, add_comm e, two_zpow_add]
      exact mul_le_mul_of_nonneg_right hlow hstep.le
  have hrounded : roundEven (m + t) = m := by
    refine roundEven_eq_of_abs_lt ?_
    rw [Int.cast_natCast, sub_add_cancel_left, abs_neg]
    exact ht
  rw [nearest, hexponent, mul_div_cancel_right₀ _ hstep.ne', hrounded, Int.cast_natCast]

/-- Rounding the square of a number of 53 bits moves it by less than three quarters of a step of the
number times the number. -/
theorem abs_nearest_square_sub_le (hlow : 2 ^ 52 ≤ m) (hhigh : m < 2 ^ 53) (he : -500 ≤ e) :
    |nearest (m * 2 ^ e * (m * 2 ^ e)) - m * 2 ^ e * (m * 2 ^ e)| ≤
      (3 / 4 * m - 1) * (2 ^ e * 2 ^ e) := by
  have hunit : (0 : ℚ) < 2 ^ e * 2 ^ e := mul_pos (two_zpow_pos e) (two_zpow_pos e)
  have hleast : (2 : ℚ) ^ 52 ≤ m := by exact_mod_cast hlow
  have hmost : (m : ℚ) < 2 ^ 53 := by exact_mod_cast hhigh
  have hpos : (0 : ℚ) < m * 2 ^ e * (m * 2 ^ e) := by positivity
  have hwithin (k : ℕ) (hsquare : (m : ℚ) * m < 2 ^ (k + 53)) :
      |nearest (m * 2 ^ e * (m * 2 ^ e)) - m * 2 ^ e * (m * 2 ^ e)| ≤
        2 ^ k / 2 * (2 ^ e * 2 ^ e) := by
    have hexponent : stepExponent (m * 2 ^ e * (m * 2 ^ e)) ≤ k + (e + e) := by
      refine stepExponent_le hpos.ne' (by omega) ?_
      rw [abs_of_pos hpos, mul_mul_mul_comm,
        show k + (e + e) + 53 = ((k + 53 : ℕ) : ℤ) + (e + e) by omega, two_zpow_add, two_zpow_add e,
        zpow_natCast]
      exact mul_lt_mul_of_pos_right hsquare hunit
    calc _ ≤ (2 : ℚ) ^ stepExponent (m * 2 ^ e * (m * 2 ^ e)) / 2 := abs_nearest_sub_le _
      _ ≤ 2 ^ (k + (e + e)) / 2 := div_le_div_of_nonneg_right (two_zpow_le hexponent) two_pos.le
      _ = 2 ^ k / 2 * (2 ^ e * 2 ^ e) := by
        rw [two_zpow_add, two_zpow_add, zpow_natCast]
        ring
  by_cases hsmall : (m : ℚ) * m < 2 ^ (52 + 53)
  · exact (hwithin 52 hsmall).trans (mul_le_mul_of_nonneg_right (by linarith) hunit.le)
  · -- The step of the square is twice as wide, and the number is at least seven fifths of `2 ^ 52`.
    have hlarge : (7 / 5 : ℚ) * 2 ^ 52 ≤ m := by
      by_contra hlt
      exact hsmall ((mul_self_lt_mul_self m.cast_nonneg (not_le.1 hlt)).trans (by norm_num))
    have hsquare : (m : ℚ) * m < 2 ^ (53 + 53) :=
      (mul_self_lt_mul_self m.cast_nonneg hmost).trans_eq (by norm_num)
    exact (hwithin 53 hsquare).trans (mul_le_mul_of_nonneg_right (by linarith) hunit.le)

/-- What is beyond a power of two has a square beyond the square of the power, also when rounded. -/
theorem two_zpow_lt_nearest_square {p : ℚ} (hgrid : nearest p = p) (he : -500 ≤ e)
    (h : 2 ^ e < p) : 2 ^ (e + e) < nearest (p * p) := by
  have hpower : (2 : ℚ) ^ e = (2 ^ 52 : ℕ) * 2 ^ (e - 52) := by
    rw [show ((2 ^ 52 : ℕ) : ℚ) = 2 ^ (52 : ℤ) by norm_num, ← two_zpow_add]
    congr 1
    ring
  have hnext := add_one_mul_le_of_lt hgrid (by omega) le_rfl (by norm_num) (hpower ▸ h)
  have hunit : (0 : ℚ) < 2 ^ (e - 52) * 2 ^ (e - 52) := mul_pos (two_zpow_pos _) (two_zpow_pos _)
  -- The square of the next double is two steps above the square of the power.
  have hsquare : (((2 ^ 52 + 2 : ℤ) : ℚ)) * 2 ^ (e + e - 52) ≤ p * p := by
    have hfactor : (2 : ℚ) ^ (e + e - 52) = 2 ^ 52 * (2 ^ (e - 52) * 2 ^ (e - 52)) := by
      rw [← two_zpow_add, ← zpow_natCast, ← two_zpow_add]
      congr 1
      push_cast
      ring
    calc _ ≤ ((2 ^ 52 : ℕ) + 1 : ℚ) * 2 ^ (e - 52) * (((2 ^ 52 : ℕ) + 1) * 2 ^ (e - 52)) := by
          rw [hfactor, mul_mul_mul_comm, ← mul_assoc]
          exact mul_le_mul_of_nonneg_right (by norm_num) hunit.le
      _ ≤ p * p := mul_self_le_mul_self (by positivity) hnext
  have hrounded := nearest_mono hsquare
  rw [nearest_of_grid (by norm_num) (by omega)] at hrounded
  refine lt_of_lt_of_le ?_ hrounded
  rw [show e + e = 52 + (e + e - 52) by ring, two_zpow_add, show 52 + (e + e - 52) - 52 = e + e - 52
    by ring]
  exact mul_lt_mul_of_pos_right (by norm_num) (two_zpow_pos _)

theorem nearest_square_le_two_zpow {p : ℚ} (hnonneg : 0 ≤ p) (he : -500 ≤ e) (h : p ≤ 2 ^ e) :
    nearest (p * p) ≤ 2 ^ (e + e) := by
  rw [← nearest_two_zpow (by omega), two_zpow_add]
  exact nearest_mono (mul_self_le_mul_self hnonneg h)

theorem two_zpow_le_nearest_square {p : ℚ} (he : -500 ≤ e) (h : 2 ^ e ≤ p) :
    2 ^ (e + e) ≤ nearest (p * p) := by
  refine two_zpow_le_nearest_of_le (by omega) ?_
  rw [two_zpow_add]
  exact mul_self_le_mul_self (two_zpow_pos e).le h

/-- The square of what is not above a full significand is not above a full significand. -/
theorem nearest_square_le {p : ℚ} (hnonneg : 0 ≤ p) (he : -500 ≤ e)
    (h : p ≤ (2 ^ 53 - 1) * 2 ^ e) : nearest (p * p) ≤ (2 ^ 53 - 1) * 2 ^ (53 + (e + e)) := by
  have hfull := nearest_of_grid (n := 2 ^ 53 - 1) (e := 53 + (e + e)) (by norm_num) (by omega)
  rw [show ((2 ^ 53 - 1 : ℤ) : ℚ) = 2 ^ 53 - 1 by norm_num] at hfull
  rw [← hfull]
  refine nearest_mono ((mul_self_le_mul_self hnonneg h).trans ?_)
  have hunit : (0 : ℚ) < 2 ^ e * 2 ^ e := mul_pos (two_zpow_pos e) (two_zpow_pos e)
  calc _ = ((2 ^ 53 - 1) * (2 ^ 53 - 1) : ℚ) * (2 ^ e * 2 ^ e) := mul_mul_mul_comm _ _ _ _
    _ ≤ (2 ^ 53 - 1) * 2 ^ (53 : ℤ) * (2 ^ e * 2 ^ e) :=
        mul_le_mul_of_nonneg_right (by norm_num) hunit.le
    _ = (2 ^ 53 - 1) * 2 ^ (53 + (e + e)) := by rw [two_zpow_add, two_zpow_add, mul_assoc]

/-- Below `2 ^ 256` the square of a square is in range, each square being rounded. -/
theorem nearest_fourth_power_lt {p : ℚ} (hgrid : nearest p = p) (hnonneg : 0 ≤ p)
    (h : p < 2 ^ (256 : ℤ)) :
    nearest (nearest (p * p) * nearest (p * p)) < 2 ^ (1024 : ℤ) := by
  have hlast : p ≤ (2 ^ 53 - 1) * 2 ^ (203 : ℤ) := by
    by_contra hlt
    have hnext := add_one_mul_le_of_lt (m := 2 ^ 53 - 1) (e := 203) hgrid (by norm_num)
      (by norm_num) (by norm_num) (by norm_num at hlt ⊢; exact hlt)
    rw [show (256 : ℤ) = 53 + 203 by norm_num, two_zpow_add] at h
    norm_num at hnext h
    exact h.not_ge hnext
  have hsquare := nearest_square_le hnonneg (by norm_num) hlast
  have hfourth := nearest_square_le (nearest_nonneg (mul_self_nonneg p)) (by norm_num) hsquare
  exact hfourth.trans_lt greatest_lt

end Squares

/-! ### Roots of doubles -/

namespace IsRoundedRoot

variable {q v : ℚ}

theorem nonneg (h : IsRoundedRoot q v) (hq : 0 ≤ q) : 0 ≤ v := by
  have := h.le 0 le_rfl (by rwa [mul_zero])
  rwa [nearest_zero] at this

/-- A root is not above the power of two that bounds it. -/
theorem le_two_zpow (h : IsRoundedRoot q v) {e : ℤ} (he : -1074 ≤ e) (hq : q ≤ 2 ^ (e + e)) :
    v ≤ 2 ^ e := by
  rw [← nearest_two_zpow he]
  refine h.ge _ (two_zpow_pos e).le ?_
  rwa [← two_zpow_add]

/-- **The root of a square** is its side, also after the square has been rounded. -/
theorem eq_of_square {p : ℚ} (hgrid : nearest p = p) (hlow : 2 ^ (-448 : ℤ) ≤ p)
    (h : IsRoundedRoot (nearest (p * p)) v) : v = p := by
  obtain ⟨m, e, hleast, hmost, rfl⟩ :=
    exists_significand hgrid ((two_zpow_le (by norm_num)).trans hlow)
  have hside : (0 : ℚ) ≤ m * 2 ^ e := mul_nonneg (Nat.cast_nonneg m) (two_zpow_pos e).le
  have he : -500 ≤ e := by
    have := lt_of_two_zpow_le_significand hmost hlow
    omega
  rcases hleast.eq_or_lt with rfl | hlt
  · -- The square of a power of two is not rounded.
    have hpower : ((2 ^ 52 : ℕ) : ℚ) * 2 ^ e = 2 ^ (52 + e) := by
      rw [two_zpow_add]
      norm_num
    have hsquare := nearest_two_zpow (show -1074 ≤ (52 + e) + (52 + e) by omega)
    rw [two_zpow_add, ← hpower] at hsquare
    rw [hsquare] at h
    exact hgrid ▸ (h.ge _ hside le_rfl).antisymm (h.le _ hside le_rfl)
  · have hnext : (2 : ℚ) ^ 52 + 1 ≤ m := by exact_mod_cast hlt
    have hlast : (m : ℚ) + 1 ≤ 2 ^ 53 := by exact_mod_cast hmost
    have hdistance := abs_le.1 (abs_nearest_square_sub_le hleast hmost he)
    have hunit : (0 : ℚ) < 2 ^ e * 2 ^ e := mul_pos (two_zpow_pos e) (two_zpow_pos e)
    have hsquare (t : ℚ) : (m + t) * 2 ^ e * ((m + t) * 2 ^ e) =
        m * 2 ^ e * (m * 2 ^ e) + (2 * t * m + t * t) * (2 ^ e * 2 ^ e) := by ring
    -- Three eighths of a step to either side there are numbers that round to the side.
    have habove := nearest_of_offset (m := m) (t := 3 / 8) (e := e) (by omega) (by norm_num)
      (by linarith) (by linarith)
    have hbelow := nearest_of_offset (m := m) (t := -(3 / 8)) (e := e) (by omega) (by norm_num)
      (by linarith) (by linarith)
    refine le_antisymm (habove ▸ h.ge _ ?_ ?_) (hbelow ▸ h.le _ ?_ ?_)
    · exact mul_nonneg (by linarith) (two_zpow_pos e).le
    · rw [hsquare]
      linarith [hdistance.2]
    · exact mul_nonneg (by linarith) (two_zpow_pos e).le
    · rw [hsquare]
      linarith [hdistance.1]

end IsRoundedRoot

section Floats

variable {x : Float}

/-- **The root of a finite double** that is not below zero is finite, and it is the root rounded. -/
theorem sqrt_spec (hx : x.isFinite) (hnonneg : 0 ≤ value x) :
    x.sqrt.isFinite ∧ IsRoundedRoot (value x) (value x.sqrt) := by
  obtain ⟨hreduced, hroot⟩ := (isReduced_unpack hx).sqrt_spec hnonneg
  have hle := hroot.le_two_zpow (e := 512) (by norm_num) ((le_abs_self _).trans (abs_value_lt x).le)
  obtain ⟨hfinite, hvalue⟩ := hreduced.pack_spec (by
    rw [abs_of_nonneg (hroot.nonneg hnonneg)]
    exact hle.trans_lt (two_zpow_lt (by norm_num)))
  refine ⟨hfinite, ?_⟩
  change IsRoundedRoot (value x) (value (.ofModel (.pack (.sqrt .binary64 x.toModel.unpack))))
  rw [hvalue]
  exact hroot

/-- Only finite doubles have finite roots. -/
theorem isFinite_of_isFinite_sqrt (h : x.sqrt.isFinite) : x.isFinite := by
  have hfinite := isFinite_of_isFinite_pack
    (u := UnpackedFloat.sqrt .binary64 x.toModel.unpack) h
  change x.toModel.unpack.isFinite = true
  generalize x.toModel.unpack = u at hfinite ⊢
  cases u with
  | infinity s => cases s <;> cases hfinite
  | notANumber => cases hfinite
  | _ => rfl

end Floats

end SolidScene.Double
