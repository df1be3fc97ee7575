import SolidScene.Proofs.Document.Scene
import SolidScene.Proofs.Json.Number

/-!
# How near a number is when it is read back

A double of ordinary size is read back with four roundings more than it had: one for its shortest
decimal, one for the digits as a double, one for the power of ten and one for their product or
quotient (`isNear_reread`).  The error is a matter of rational numbers, of which one is led to by
some roundings from the other (`IsClose`); each of the four steps adds one.
-/

namespace SolidScene

namespace Double

/-! ### Close to a number -/

/-- A number that `n` roundings have led to from another one. -/
def IsClose (n : ℕ) (r q : ℚ) : Prop := |r - q| ≤ n * 2 ^ (-52 : ℤ) * q

namespace IsClose

variable {n : ℕ} {r q c s t : ℚ}

theorem bounds (h : IsClose n r q) (hn : n ≤ mostRoundings) (hq : 0 ≤ q) :
    q / 2 ≤ r ∧ r ≤ 3 / 2 * q := by
  obtain ⟨hlow, hhigh⟩ := abs_le.1 (h.trans (error_le_half hn hq))
  constructor <;> linarith

theorem scale (h : IsClose n r q) (hc : 0 < c) : IsClose n (r * c) (q * c) := by
  rw [IsClose, ← sub_mul, abs_mul, abs_of_pos hc, ← mul_assoc]
  exact mul_le_mul_of_nonneg_right h hc.le

/-- One more step of two thirds of a unit in the last place at most. -/
theorem step (h : IsClose n r q) (hn : n ≤ mostRoundings) (hq : 0 ≤ q)
    (hs : |s - r| ≤ 2 / 3 * 2 ^ (-52 : ℤ) * r) : IsClose (n + 1) s q := by
  have hunit : 2 / 3 * 2 ^ (-52 : ℤ) * r ≤ 2 ^ (-52 : ℤ) * q := by
    rw [mul_right_comm, mul_comm]
    exact mul_le_mul_of_nonneg_left (by linarith [(h.bounds hn hq).2]) (two_zpow_pos _).le
  calc |s - q| ≤ |s - r| + |r - q| := abs_sub_le _ _ _
    _ ≤ 2 ^ (-52 : ℤ) * q + n * 2 ^ (-52 : ℤ) * q := add_le_add (hs.trans hunit) h
    _ = (n + 1 : ℕ) * 2 ^ (-52 : ℤ) * q := by
      push_cast
      ring

theorem nearest (h : IsClose n r q) (hn : n ≤ mostRoundings) (hq : 2 ^ (-500 : ℤ) ≤ q) :
    IsClose (n + 1) (nearest r) q :=
  abs_nearest_sub_le_of_close hn hq h

/-- A factor that has been rounded. -/
theorem mul (h : IsClose n r q) (hn : n ≤ mostRoundings) (hq : 0 < q) (hs : 0 < s)
    (ht : |t - s| ≤ 2 ^ (-53 : ℤ) * s) : IsClose (n + 1) (r * t) (q * s) := by
  have hr : 0 < r := (half_pos hq).trans_le (h.bounds hn hq.le).1
  refine (h.scale hs).step hn (mul_pos hq hs).le ?_
  rw [← mul_sub, abs_mul, abs_of_pos hr]
  have hfactor := mul_le_mul_of_nonneg_left ht hr.le
  have hpos := mul_pos hr hs
  norm_num at hfactor ⊢
  linarith

/-- A divisor that has been rounded. -/
theorem div (h : IsClose n r q) (hn : n ≤ mostRoundings) (hq : 0 < q) (hs : 0 < s)
    (ht : |t - s| ≤ 2 ^ (-53 : ℤ) * s) : IsClose (n + 1) (r / t) (q / s) := by
  have hr : 0 < r := (half_pos hq).trans_le (h.bounds hn hq.le).1
  obtain ⟨hlow, hhigh⟩ := abs_le.1 ht
  have htpos : 3 / 4 * s ≤ t := by
    norm_num at hlow
    linarith
  have htpos' : 0 < t := by linarith
  have hscaled := h.scale (inv_pos.2 hs)
  rw [← div_eq_mul_inv, ← div_eq_mul_inv] at hscaled
  refine hscaled.step hn (div_pos hq hs).le ?_
  have hdifference : r / t - r / s = r / s * ((s - t) / t) := by
    field_simp
  rw [hdifference, abs_mul, abs_of_pos (div_pos hr hs), mul_comm]
  refine mul_le_mul_of_nonneg_right ?_ (div_pos hr hs).le
  rw [abs_div, abs_of_pos htpos', abs_sub_comm, div_le_iff₀ htpos']
  norm_num at ht ⊢
  linarith

end IsClose

end Double

namespace Json

open Double

/-! ### Powers of ten -/

theorem abs_nearest_ten_pow_sub_le (k : ℕ) :
    |nearest (10 ^ k) - 10 ^ k| ≤ 2 ^ (-53 : ℤ) * 10 ^ k := by
  have hpos : (0 : ℚ) < 10 ^ k := zero_lt_one.trans_le (one_le_ten_pow k)
  have hnormal : 2 ^ (-1022 : ℤ) ≤ |(10 : ℚ) ^ k| := by
    rw [abs_of_pos hpos]
    exact (two_zpow_le (show (-1022 : ℤ) ≤ 0 by norm_num)).trans
      (by rw [zpow_zero]; exact one_le_ten_pow k)
  have herror := abs_nearest_sub_le_mul hnormal
  rwa [abs_of_pos hpos] at herror

/-- One division is enough for digits that fit into a word and a quotient of ordinary size. -/
theorem le_greatestPower_of_le_div {w k : ℕ} (hw : w < significandLimit)
    (h : 2 ^ (-501 : ℤ) ≤ (w : ℚ) / 10 ^ k) : k ≤ greatestPower := by
  by_contra hlt
  have hten : (0 : ℚ) < 10 ^ k := zero_lt_one.trans_le (one_le_ten_pow k)
  have hpow : (10 : ℚ) ^ (greatestPower + 1) ≤ 10 ^ k :=
    pow_le_pow_right₀ (by norm_num) (Nat.lt_of_not_le hlt)
  have hlarge : (10 : ℚ) ^ 20 * 2 ^ (501 : ℤ) < 10 ^ (greatestPower + 1) := by
    have hnat : 10 ^ 20 * 2 ^ 501 < 10 ^ (greatestPower + 1) := by decide +kernel
    exact_mod_cast hnat
  have hdigits : (w : ℚ) * 2 ^ (501 : ℤ) ≤ 10 ^ 20 * 2 ^ (501 : ℤ) :=
    mul_le_mul_of_nonneg_right (cast_le_of_lt_significandLimit hw) (two_zpow_pos _).le
  rw [le_div_iff₀ hten, zpow_neg, ← div_eq_inv_mul, div_le_iff₀ (two_zpow_pos _)] at h
  linarith only [h, hdigits, hlarge, hpow]

theorem three_mul_two_zpow_le : 3 * (2 : ℚ) ^ (-1075 : ℤ) ≤ 2 ^ (-501 : ℤ) := by
  have hfine : (2 : ℚ) ^ (2 : ℤ) * 2 ^ (-1075 : ℤ) ≤ 2 ^ (-501 : ℤ) := by
    rw [← two_zpow_add]
    exact two_zpow_le (by norm_num)
  exact (mul_le_mul_of_nonneg_right (by norm_num) (two_zpow_pos _).le).trans hfine

/-- Half as much again of a number of ordinary size stays clear of the end of the range. -/
theorem three_halves_mul_le_nearGreatest {q : ℚ} (hq : 0 ≤ q) (hupper : q ≤ 2 ^ (500 : ℤ)) :
    3 / 2 * q ≤ nearGreatest := by
  have hlast : (1 : ℚ) * 2 ^ (971 : ℤ) ≤ nearGreatest :=
    mul_le_mul_of_nonneg_right (by norm_num) (two_zpow_pos 971).le
  calc 3 / 2 * q ≤ 2 * q := mul_le_mul_of_nonneg_right (by norm_num) hq
    _ ≤ 2 * 2 ^ (500 : ℤ) := mul_le_mul_of_nonneg_left hupper zero_le_two
    _ = 2 ^ (501 : ℤ) := by rw [show (501 : ℤ) = 1 + 500 by norm_num, two_zpow_add, zpow_one]
    _ ≤ 2 ^ (971 : ℤ) := two_zpow_le (by norm_num)
    _ ≤ nearGreatest := by rwa [one_mul] at hlast

/-! ### Numerals -/

section Accuracy

variable {j n : ℕ} {q : ℚ}

/-- What some digits are close to is not small. -/
theorem lower_of_isClose_natCast {w : ℕ} (hw : 0 < w) (h : IsClose j w q)
    (hj : j ≤ mostRoundings) (hq : 0 < q) : 2 ^ (-500 : ℤ) ≤ q := by
  have hone : (1 : ℚ) ≤ w := by exact_mod_cast hw
  have hle := (h.bounds hj hq.le).2
  have hfine : (2 : ℚ) ^ (-500 : ℤ) ≤ 2 ^ (-1 : ℤ) := two_zpow_le (by norm_num)
  rw [zpow_neg_one] at hfine
  linarith

/-- Digits are scaled up with three roundings: theirs, that of the power of ten and that of the
product. -/
theorem scaleUp?_isClose {w k : ℕ} (hw : 0 < w) (hdigits : w < significandLimit)
    (h : IsClose j (w * 10 ^ k) q) (hj : j + 3 ≤ mostRoundings) (hlower : 2 ^ (-500 : ℤ) ≤ q)
    (hupper : q ≤ 2 ^ (500 : ℤ)) :
    ∃ f, scaleUp? (Float.ofNat w) k = some f ∧ f.isFinite ∧ IsClose (j + 3) (value f) q := by
  have hpos : 0 < q := (two_zpow_pos _).trans_le hlower
  have hten : (0 : ℚ) < 10 ^ k := zero_lt_one.trans_le (one_le_ten_pow k)
  have hquotient : 0 < q / 10 ^ k := div_pos hpos hten
  have hrange : (w : ℚ) * 10 ^ k ≤ nearGreatest :=
    (h.bounds (by omega) hpos.le).2.trans (three_halves_mul_le_nearGreatest hpos.le hupper)
  obtain ⟨f, hf, hfinite, hvalue, -⟩ := scaleUp?_spec hw hdigits hrange
  -- The digits are close to what is left of the number when the power of ten is taken away.
  have hdigit : IsClose j w (q / 10 ^ k) := by
    have hscaled := h.scale (inv_pos.2 hten)
    rwa [mul_inv_cancel_right₀ hten.ne', ← div_eq_mul_inv] at hscaled
  have hsignificand : IsClose (j + 1) (nearest w) (q / 10 ^ k) :=
    hdigit.nearest (by omega) (lower_of_isClose_natCast hw hdigit (by omega) hquotient)
  have hproduct := hsignificand.mul (by omega) hquotient hten (abs_nearest_ten_pow_sub_le k)
  rw [div_mul_cancel₀ _ hten.ne'] at hproduct
  exact ⟨f, hf, hfinite, hvalue ▸ hproduct.nearest (by omega) hlower⟩

/-- Digits are scaled down with three roundings: theirs, that of the power of ten and that of the
quotient. -/
theorem scaleDown_isClose {w k : ℕ} (hw : 0 < w) (hdigits : w < significandLimit)
    (h : IsClose j (w / 10 ^ k) q) (hj : j + 3 ≤ mostRoundings) (hlower : 2 ^ (-500 : ℤ) ≤ q) :
    (scaleDown (Float.ofNat w) k).isFinite ∧
      IsClose (j + 3) (value (scaleDown (Float.ofNat w) k)) q := by
  have hone : (1 : ℚ) ≤ w := by exact_mod_cast hw
  have hpos : 0 < q := (two_zpow_pos _).trans_le hlower
  have hten : (0 : ℚ) < 10 ^ k := zero_lt_one.trans_le (one_le_ten_pow k)
  have hproduct : 0 < q * 10 ^ k := mul_pos hpos hten
  have hk : k ≤ greatestPower := by
    refine le_greatestPower_of_le_div hdigits (le_trans ?_ (h.bounds (by omega) hpos.le).1)
    rw [show (-501 : ℤ) = -500 + -1 by norm_num, two_zpow_add, zpow_neg_one, ← div_eq_mul_inv]
    exact div_le_div_of_nonneg_right hlower zero_le_two
  have hdigit : IsClose j w (q * 10 ^ k) := by
    have hscaled := h.scale hten
    rwa [div_mul_cancel₀ _ hten.ne'] at hscaled
  have hsignificand : IsClose (j + 1) (nearest w) (q * 10 ^ k) :=
    hdigit.nearest (by omega) (lower_of_isClose_natCast hw hdigit (by omega) hproduct)
  have hquotient := hsignificand.div (by omega) hproduct hten (abs_nearest_ten_pow_sub_le k)
  rw [mul_div_cancel_right₀ _ hten.ne'] at hquotient
  obtain ⟨hfinite, hvalue, hgreatest⟩ := ofNat_spec hdigits
  have hvaluePos : 0 < value (Float.ofNat w) :=
    hvalue ▸ zero_lt_one.trans_le (one_le_nearest hone)
  obtain ⟨hscaled, hscaledValue, -⟩ := div_powerOfTen_spec hfinite hvaluePos hgreatest hk
  rw [scaleDown, scaleDown.go, if_pos hk, hscaledValue, hvalue]
  exact ⟨hscaled, hquotient.nearest (by omega) hlower⟩

/-- A numeral of ordinary size is read with three roundings. -/
theorem numeralValue?_isClose {m : Numeral}
    (hdigits : natOfDigits (m.whole ++ m.fraction) < significandLimit)
    (hexponent : (m.exponent.getD 0).natAbs ≤ exponentLimit) (h : IsClose j m.toRat q)
    (hj : j + 3 ≤ mostRoundings) (hlower : 2 ^ (-500 : ℤ) ≤ q) (hupper : q ≤ 2 ^ (500 : ℤ)) :
    ∃ f, numeralValue? m = some f ∧ f.isFinite ∧ IsClose (j + 3) (value f) q := by
  have hpos : 0 < q := (two_zpow_pos _).trans_le hlower
  rw [numeralValue?_eq hdigits hexponent]
  rw [Numeral.toRat] at h
  generalize natOfDigits (m.whole ++ m.fraction) = w at *
  generalize m.exponent.getD 0 - m.fraction.length = total at *
  have hw : 0 < w := by
    rcases Nat.eq_zero_or_pos w with rfl | hw
    · have hhalf := (h.bounds (by omega) hpos.le).1
      rw [Nat.cast_zero, zero_mul] at hhalf
      linarith
    · exact hw
  split
  · next hnonneg =>
    obtain ⟨k, rfl⟩ := Int.eq_ofNat_of_zero_le hnonneg
    rw [zpow_natCast] at h
    exact scaleUp?_isClose hw hdigits h hj hlower hupper
  · next hneg =>
    obtain ⟨k, rfl⟩ := Int.exists_eq_neg_ofNat (le_of_not_ge hneg)
    rw [zpow_neg, zpow_natCast, ← div_eq_mul_inv] at h
    rw [Int.natAbs_neg, Int.natAbs_natCast]
    exact ⟨_, rfl, scaleDown_isClose hw hdigits h hj hlower⟩

/-- A double of ordinary size is written as a decimal at most half a unit in the last place away. -/
theorem abs_shortest_sub_le {x : Float} {v : ExactValue} (hx : ExactValue.ofFloat? x = some v)
    (hlower : 2 ^ (-1000 : ℤ) ≤ value x) :
    isNegative x = false ∧ ∃ d, Decimal.shortest? .even x = some d ∧ d.digits ≤ 10 ^ 17 ∧
      |d.toRat - value x| ≤ 2 ^ (-53 : ℤ) * value x := by
  have hpos : 0 < value x := (two_zpow_pos _).trans_le hlower
  have hvalue := value_eq_of_ofFloat? hx
  have hmagnitude : 0 ≤ (v.mantissa : ℚ) * 2 ^ v.exponent :=
    mul_nonneg (Nat.cast_nonneg _) (two_zpow_pos _).le
  have hsign : isNegative x = false := by
    by_contra hminus
    rw [Bool.not_eq_false] at hminus
    rw [hminus, if_pos rfl] at hvalue
    linarith
  rw [hsign, if_neg Bool.false_ne_true, one_mul] at hvalue
  have hm : 0 < v.mantissa := by
    rcases Nat.eq_zero_or_pos v.mantissa with hzero | hm
    · rw [hvalue, hzero, Nat.cast_zero, zero_mul] at hpos
      exact absurd hpos (lt_irrefl 0)
    · exact hm
  obtain ⟨d, hd, -, hdigits, hclose⟩ := shortest?_spec .even hx hm
  refine ⟨hsign, d, hd, hdigits, ?_⟩
  have hcanonical := (isCanonical_of_ofFloat? hx hm).1
  -- So far from zero the step between doubles is not the finest.
  have hexponent : v.exponent ≠ -1074 := by
    intro heq
    have hlt := hcanonical.mul_lt
    rw [← hvalue, heq] at hlt
    exact absurd (hlower.trans_lt hlt) (two_zpow_le (by norm_num)).not_gt
  have hstep := hcanonical.le_mul hexponent
  rw [hvalue]
  calc |d.toRat - v.mantissa * 2 ^ v.exponent| ≤ 2 ^ v.exponent / 2 := hclose.abs_sub_le
    _ = 2 ^ (-53 : ℤ) * 2 ^ (v.exponent + 52) := by
      rw [← two_zpow_add, div_eq_mul_inv, ← zpow_neg_one, ← two_zpow_add]
      congr 1
      ring
    _ ≤ 2 ^ (-53 : ℤ) * (v.mantissa * 2 ^ v.exponent) :=
      mul_le_mul_of_nonneg_left hstep (two_zpow_pos _).le

/-- **A double of ordinary size is read back** with four roundings more. -/
theorem isNear_reread {x : Float} (hx : IsNear n x q) (hn : n + 4 ≤ mostRoundings) :
    ∃ y, reread x = some y ∧ IsNear (n + 4) y q := by
  have hn' : n + 4 ≤ 8 := hn
  have hlower : 2 ^ (-500 : ℤ) ≤ q := (two_zpow_le (by omega)).trans hx.lower
  have hupper : q ≤ 2 ^ (500 : ℤ) := hx.upper.trans (two_zpow_le (by omega))
  have hhalf : 2 ^ (-501 : ℤ) ≤ q / 2 := by
    rw [show (-501 : ℤ) = -500 + -1 by norm_num, two_zpow_add, zpow_neg_one, ← div_eq_mul_inv]
    exact div_le_div_of_nonneg_right hlower zero_le_two
  have hvalue : IsClose n (value x) q := hx.close
  have hvalueLower : 2 ^ (-501 : ℤ) ≤ value x :=
    hhalf.trans (hvalue.bounds (by omega) hx.pos.le).1
  obtain ⟨v, hv⟩ := exists_ofFloat?_eq hx.finite
  obtain ⟨hsign, d, hd, hmost, hclose⟩ :=
    abs_shortest_sub_le hv ((two_zpow_le (by norm_num)).trans hvalueLower)
  have hdecimal : IsClose (n + 1) d.toRat q := by
    refine hvalue.step (by omega) hx.pos.le (hclose.trans ?_)
    exact mul_le_mul_of_nonneg_right (by norm_num) ((two_zpow_pos _).le.trans hvalueLower)
  obtain ⟨hdecimalLower, hdecimalUpper⟩ := hdecimal.bounds (by omega) hx.pos.le
  have hdigits : natOfDigits ((format.writeMagnitude d).whole ++
      (format.writeMagnitude d).fraction) < significandLimit := by
    refine (NumberFormat.natOfDigits_writeMagnitude_le rfl d).trans_lt (max_lt ?_ (by decide))
    exact hmost.trans_lt (by decide)
  have hexponent : ((format.writeMagnitude d).exponent.getD 0).natAbs ≤ exponentLimit :=
    natAbs_exponent_le ((three_mul_two_zpow_le.trans hhalf).trans hdecimalLower)
      (hdecimalUpper.trans (three_halves_mul_le_nearGreatest hx.pos.le hupper))
  rw [← NumberFormat.toRat_writeMagnitude format d] at hdecimal
  obtain ⟨y, hy, hfinite, hyClose⟩ :=
    numeralValue?_isClose hdigits hexponent hdecimal (by omega) hlower hupper
  have hwrite : format.write? x = some (format.writeMagnitude d) := by
    rw [NumberFormat.write?]
    exact congrArg (Option.map _) hd
  refine ⟨y, ?_, hfinite, hyClose, ?_, ?_⟩
  · rw [reread, ofFloat, hwrite]
    simp [toFloat?, hy, hsign]
  · exact (two_zpow_le (by omega)).trans hx.lower
  · exact hx.upper.trans (two_zpow_le (by omega))

end Accuracy

end Json

end SolidScene
