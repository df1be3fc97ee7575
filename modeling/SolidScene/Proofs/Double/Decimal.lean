import SolidScene.Proofs.Double.Arithmetic
import SolidScene.Proofs.Double.Exact

/-!
# The doubles that decimals name

A decimal names the double nearest to it (`toFloat_spec`), whichever way it is worked out: from two
doubles that are exact where the digits and the power of ten are small enough, from the natural
numbers otherwise, and without any of it where the size of the numbers settles the matter.  Beyond
all doubles it names infinity (`toFloat_eq_infinity`).
-/

namespace SolidScene

/-- The number that a decimal is. -/
def Decimal.toRat (d : Decimal) : ℚ := d.digits * 10 ^ d.exponent

namespace Double

open Float.Model
open Float.Model.UnpackedFloat (Sign roundWithAccuracy decreaseExponent)

/-! ### Natural numbers -/

/-- A natural number of at most 53 bits is a double. -/
theorem ofUInt64_spec {m : ℕ} (hm : m < 2 ^ 53) :
    m.toUInt64.toFloat.isFinite ∧ value m.toUInt64.toFloat = m := by
  have hword : m.toUInt64.toNat = m := by
    change m % 2 ^ 64 = m
    omega
  have hmodel : m.toUInt64.toFloat =
      .ofModel (.pack (UnpackedFloat.normalize .binary64 m 0 .positive)) := by
    conv_rhs => rw [← hword]
    rfl
  rw [hmodel]
  have hexact : nearest (m * 2 ^ (0 : ℤ)) = m := by
    have := nearest_of_grid (n := m) (e := 0) (by rw [abs_of_nonneg (by omega)]; omega)
      (by norm_num)
    simpa using this
  rcases Nat.eq_zero_or_pos m with rfl | hpos
  · exact (IsReduced.zero .positive).pack_spec (by simp)
  have hnormalize : UnpackedFloat.normalize .binary64 m 0 .positive =
      UnpackedFloat.round .binary64 .positive m 0 := by
    have hsign : compare (m : ℤ) 0 = .gt := compare_gt_iff_gt.2 (by exact_mod_cast hpos)
    rw [UnpackedFloat.normalize, hsign, Int.toNat_natCast]
  obtain ⟨hreduced, hvalue⟩ := round_spec (s := .positive) (e := 0) hpos
  rw [hexact, signFactor_positive, one_mul] at hvalue
  have hrange : |(m : ℚ)| < 2 ^ (1024 : ℤ) := by
    rw [Nat.abs_cast]
    calc (m : ℚ) < 2 ^ (53 : ℤ) := by exact_mod_cast hm
      _ ≤ 2 ^ (1024 : ℤ) := two_zpow_le (by norm_num)
  rw [hnormalize, ← hvalue]
  exact hreduced.pack_spec (by rwa [hvalue])

/-! ### Powers of ten -/

theorem powersOfTen_check (i : Fin Float.exactlyRepresentablePowersOfTen.size) :
    (ExactValue.ofFloat? Float.exactlyRepresentablePowersOfTen[i]).any fun v =>
      !v.negative && v.numerator == 10 ^ i.val * v.denominator := by
  revert i
  decide

/-- The powers of ten that are doubles. -/
theorem exactlyRepresentablePowersOfTen_spec {k : ℕ}
    (hk : k < Float.exactlyRepresentablePowersOfTen.size) :
    Float.exactlyRepresentablePowersOfTen[k].isFinite ∧
      value Float.exactlyRepresentablePowersOfTen[k] = 10 ^ k := by
  obtain ⟨v, hv, hcheck⟩ := (Option.any_eq_true _ _).1 (powersOfTen_check ⟨k, hk⟩)
  rw [Bool.and_eq_true, Bool.not_eq_true', beq_iff_eq] at hcheck
  obtain ⟨hfinite, hvalue⟩ := toRat_of_ofFloat?_eq hv
  refine ⟨hfinite, hvalue.trans ?_⟩
  have hden : (v.denominator : ℚ) ≠ 0 := by exact_mod_cast v.denominator_pos.ne'
  rw [ExactValue.toRat, hcheck.1, hcheck.2, Nat.cast_mul, mul_div_cancel_right₀ _ hden]
  simp

theorem ten_zpow_le {e : ℤ} (he : e ≤ 0) : (10 : ℚ) ^ e ≤ 2 ^ e := by
  obtain ⟨k, rfl⟩ := Int.exists_eq_neg_ofNat he
  rw [zpow_neg, zpow_neg, zpow_natCast, zpow_natCast]
  exact inv_anti₀ (by positivity) (pow_le_pow_left₀ (by norm_num) (by norm_num) k)

theorem two_zpow_le_ten_zpow {e : ℤ} (he : 0 ≤ e) : (2 : ℚ) ^ e ≤ 10 ^ e := by
  obtain ⟨k, rfl⟩ := Int.eq_ofNat_of_zero_le he
  rw [zpow_natCast, zpow_natCast]
  exact pow_le_pow_left₀ (by norm_num) (by norm_num) k

theorem ten_zpow_pos (e : ℤ) : (0 : ℚ) < 10 ^ e := zpow_pos (by norm_num) e

/-! ### Decimals of any size -/

section Decimals

variable {m : ℕ} {e : ℤ}

/-- What rounds to a double is itself in range. -/
theorem lt_of_nearest_lt {q : ℚ} (h : nearest q < 2 ^ (1024 : ℤ)) : q < 2 ^ (1024 : ℤ) := by
  by_contra hge
  exact h.not_ge (two_zpow_le_nearest_of_le (by norm_num) (not_lt.1 hge))

/-- Digits so far below the point round to zero. -/
theorem nearest_mul_ten_zpow_eq_zero (hm : 0 < m) (he : e < -(2 ^ 11 + m.log2)) :
    nearest (m * 10 ^ e) = 0 := by
  refine nearest_eq_zero ?_
  have hsucc : (m : ℚ) < 2 ^ ((m.log2 : ℤ) + 1) :=
    (lt_add_one _).trans_le (add_one_le_two_zpow_log2 m)
  rw [abs_of_pos (by positivity)]
  calc (m : ℚ) * 10 ^ e
      ≤ m * 2 ^ e := mul_le_mul_of_nonneg_left (ten_zpow_le (by omega)) (Nat.cast_nonneg m)
    _ < 2 ^ ((m.log2 : ℤ) + 1) * 2 ^ e := mul_lt_mul_of_pos_right hsucc (two_zpow_pos e)
    _ = 2 ^ ((m.log2 : ℤ) + 1 + e) := (two_zpow_add _ _).symm
    _ ≤ 2 ^ (-1075 : ℤ) := two_zpow_le (by omega)

/-- Digits are multiplied by a power of ten with as many bits after them as a double has. -/
theorem mul_ten_pow_spec (hm : 0 < m) {M : ℕ} (hM : 0 < M) (hshift : M = m * 2 ^ 53) {k : ℕ}
    (hten : 0 < 10 ^ k) :
    let u := UnpackedFloat.mul .binary64 (.finite .positive M (-53) hM)
      (.finite .positive (10 ^ k) 0 hten)
    IsReduced u ∧ unpackedValue u = nearest (m * 10 ^ (k : ℤ)) := by
  have hdigits : 2 ^ 52 ≤ M * 10 ^ k :=
    calc 2 ^ 52 ≤ 2 ^ 53 := by norm_num
      _ ≤ m * 2 ^ 53 := Nat.le_mul_of_pos_left _ hm
      _ = M := hshift.symm
      _ ≤ M * 10 ^ k := Nat.le_mul_of_pos_right _ hten
  obtain ⟨hreduced, hvalue⟩ := mul_finite_spec (s := .positive) (t := .positive) (e := -53) (d := 0)
    hM hten (.inr hdigits)
  refine ⟨hreduced, hvalue.trans (congrArg nearest ?_)⟩
  have hcancel : (2 : ℚ) ^ 53 * 2 ^ (-53 : ℤ) = 1 := by norm_num
  rw [unpackedValue_finite, unpackedValue_finite, signFactor_positive, one_mul, one_mul, zpow_zero,
    mul_one, hshift, Nat.cast_mul, Nat.cast_pow, Nat.cast_ofNat, mul_assoc (m : ℚ), hcancel,
    mul_one, zpow_natCast, Nat.cast_pow, Nat.cast_ofNat]

/-- Digits are divided by a power of ten. -/
theorem div_ten_pow_spec (hm : 0 < m) {k : ℕ} (hten : 0 < 10 ^ k) :
    let u := UnpackedFloat.div .binary64 (.finite .positive m 0 hm)
      (.finite .positive (10 ^ k) 0 hten)
    IsReduced u ∧ unpackedValue u = nearest (m * 10 ^ (-(k : ℤ))) := by
  obtain ⟨hreduced, hvalue⟩ := div_finite_spec (s := .positive) (t := .positive) (e := 0) (d := 0)
    hm hten
  refine ⟨hreduced, hvalue.trans (congrArg nearest ?_)⟩
  rw [unpackedValue_finite, unpackedValue_finite, signFactor_positive, one_mul, one_mul, zpow_zero,
    mul_one, mul_one, zpow_neg, zpow_natCast, Nat.cast_pow, Nat.cast_ofNat, div_eq_mul_inv]

/-- Digits in front of so many zeros are beyond all doubles. -/
theorem two_zpow_le_mul_ten_zpow (hm : 0 < m) (he : 2048 < e) :
    (2 : ℚ) ^ (1024 : ℤ) ≤ m * 10 ^ e := by
  have hone : (1 : ℚ) ≤ m := by exact_mod_cast hm
  calc (2 : ℚ) ^ (1024 : ℤ) ≤ 2 ^ e := two_zpow_le (by omega)
    _ ≤ 10 ^ e := two_zpow_le_ten_zpow (by omega)
    _ ≤ m * 10 ^ e := le_mul_of_one_le_left (ten_zpow_pos e).le hone

/-- Digits and a power of ten that is not beyond all doubles are rounded to the nearest number of
the grid. -/
theorem ofScientific_reduced (h : m = 0 ∨ e ≤ 2048) :
    IsReduced (UnpackedFloat.ofScientific .binary64 m e) ∧
      unpackedValue (UnpackedFloat.ofScientific .binary64 m e) = nearest (m * 10 ^ e) := by
  rw [UnpackedFloat.ofScientific]
  split
  · next hzero => exact ⟨.zero _, by simp [hzero]⟩
  · next hzero =>
    have hpos : 0 < m := Nat.pos_of_ne_zero hzero
    split
    · next hgreat => exact absurd (h.resolve_left hzero) (not_le.2 hgreat)
    split
    · next hsmall =>
      refine ⟨.zero _, ?_⟩
      rw [unpackedValue_zero, nearest_mul_ten_zpow_eq_zero hpos hsmall]
    split
    · next hnonneg =>
      obtain ⟨k, rfl⟩ := Int.eq_ofNat_of_zero_le hnonneg
      have hshift : m <<< Format.binary64.mantissaBits = m * 2 ^ 53 := Nat.shiftLeft_eq m 53
      have hten : 0 < 10 ^ k := Nat.pow_pos (by norm_num)
      exact mul_ten_pow_spec hpos (hshift ▸ Nat.mul_pos hpos (Nat.two_pow_pos 53)) hshift hten
    · next hnegative =>
      obtain ⟨k, rfl⟩ := Int.exists_eq_neg_ofNat (not_le.1 hnegative).le
      have hten : 0 < 10 ^ k := Nat.pow_pos (by norm_num)
      simp only [neg_neg, Int.toNat_natCast]
      exact div_ten_pow_spec hpos hten

/-- Digits and a power of ten of any size give the nearest double, if that is in range. -/
theorem ofScientific_spec (h : nearest (m * 10 ^ e) < 2 ^ (1024 : ℤ)) :
    (Float.ofModel (Float.Model.ofScientific m e)).isFinite ∧
      value (.ofModel (Float.Model.ofScientific m e)) = nearest (m * 10 ^ e) := by
  have hsize : m = 0 ∨ e ≤ 2048 := by
    by_contra hgreat
    rw [not_or, not_le] at hgreat
    exact (lt_of_nearest_lt h).not_ge
      (two_zpow_le_mul_ten_zpow (Nat.pos_of_ne_zero hgreat.1) hgreat.2)
  have hspec := ofScientific_reduced hsize
  have hnonneg : 0 ≤ nearest ((m : ℚ) * 10 ^ e) :=
    nearest_nonneg (mul_nonneg (Nat.cast_nonneg m) (ten_zpow_pos e).le)
  have hpack := hspec.1.pack_spec (by rw [hspec.2, abs_of_nonneg hnonneg]; exact h)
  rwa [hspec.2] at hpack

/-- Digits and a power of ten that are doubles themselves leave one operation to be rounded. -/
theorem float_ofScientific_spec (s : Bool) (k : ℕ)
    (h : nearest (m * 10 ^ (if s then -(k : ℤ) else k)) < 2 ^ (1024 : ℤ)) :
    (Float.ofScientific m s k).isFinite ∧
      value (Float.ofScientific m s k) = nearest (m * 10 ^ (if s then -(k : ℤ) else k)) := by
  have hnonneg (e : ℤ) : 0 ≤ nearest ((m : ℚ) * 10 ^ e) :=
    nearest_nonneg (mul_nonneg (Nat.cast_nonneg m) (ten_zpow_pos e).le)
  rw [Float.ofScientific]
  split
  · next hsmall =>
    obtain ⟨hm, hmvalue⟩ := ofUInt64_spec hsmall.1
    have hsize : k < Float.exactlyRepresentablePowersOfTen.size := Nat.lt_succ_of_le hsmall.2
    obtain ⟨hten, htenvalue⟩ := exactlyRepresentablePowersOfTen_spec hsize
    cases s with
    | true =>
      have hquotient : (m : ℚ) / 10 ^ k = m * 10 ^ (-(k : ℤ)) := by
        rw [zpow_neg, zpow_natCast, div_eq_mul_inv]
      have hdiv := div_spec hm hten (by rw [htenvalue]; exact (pow_pos (by norm_num) k).ne')
      rw [hmvalue, htenvalue, hquotient, abs_of_nonneg (hnonneg _)] at hdiv
      exact hdiv h
    | false =>
      have hmul := mul_spec hm hten
      rw [hmvalue, htenvalue, ← zpow_natCast, abs_of_nonneg (hnonneg _)] at hmul
      exact hmul h
  · cases s <;> exact ofScientific_spec h

/-- A natural number below `2 ^ 53` is a double. -/
theorem float_ofNat_spec (hm : m < 2 ^ 53) :
    (Float.ofNat m).isFinite ∧ value (Float.ofNat m) = m := by
  have hexact : nearest m = m := by
    have hgrid := nearest_of_grid (n := m) (e := 0) (by rw [Nat.abs_cast]; exact_mod_cast hm)
      (by norm_num)
    rwa [zpow_zero, mul_one, Int.cast_natCast] at hgrid
  have hspec := float_ofScientific_spec (m := m) false 0
  simp only [Bool.false_eq_true, if_false, Int.natCast_zero, zpow_zero, mul_one, hexact] at hspec
  refine hspec ?_
  calc (m : ℚ) < 2 ^ (53 : ℤ) := by exact_mod_cast hm
    _ ≤ 2 ^ (1024 : ℤ) := two_zpow_le (by norm_num)

theorem two_zpow_le_toRat_of_isHuge {d : Decimal} (h : d.isHuge) : 2 ^ (1024 : ℤ) ≤ d.toRat := by
  have hlimit : ((2 ^ Decimal.binaryLimit : ℕ) : ℚ) = 2 ^ (1024 : ℤ) := by
    rw [Nat.cast_pow, ← zpow_natCast]
    rfl
  have hle : (2 : ℚ) ^ (1024 : ℤ) * 10 ^ d.places ≤ d.digits := by
    have hdigits := Decimal.le_digits_of_isHuge h
    rw [Nat.pow_eq, Nat.pow_eq] at hdigits
    rw [← hlimit]
    generalize 2 ^ Decimal.binaryLimit = limit at hdigits
    exact_mod_cast hdigits
  rcases le_or_gt 0 d.exponent with hnonneg | hnegative
  · have hplaces : d.places = 0 := by
      rw [Decimal.places]
      omega
    rw [hplaces, pow_zero, mul_one] at hle
    refine hle.trans (le_mul_of_one_le_right (Nat.cast_nonneg _) ?_)
    exact one_le_zpow₀ (by norm_num) hnonneg
  · have hexponent : d.exponent = -(d.places : ℤ) := by
      rw [Decimal.places]
      omega
    rwa [Decimal.toRat, hexponent, zpow_neg, zpow_natCast, ← div_eq_mul_inv,
      le_div_iff₀ (pow_pos (by norm_num) _)]

theorem signed_natAbs (e : ℤ) :
    (if decide (e < 0) then -(e.natAbs : ℤ) else e.natAbs) = e := by
  split <;> rename_i hsign <;> rw [decide_eq_true_iff] at hsign <;> omega

/-- **The double of a decimal** is the nearest one, if that is in range. -/
theorem toFloat_spec {d : Decimal} (h : nearest d.toRat < 2 ^ (1024 : ℤ)) :
    d.toFloat.isFinite ∧ value d.toFloat = nearest d.toRat := by
  rw [Decimal.toFloat]
  split
  · next hhuge => exact absurd (two_zpow_le_toRat_of_isHuge hhuge) (lt_of_nearest_lt h).not_ge
  · have hexponent := signed_natAbs d.exponent
    have hspec := float_ofScientific_spec (m := d.digits) (decide (d.exponent < 0))
      d.exponent.natAbs
    rw [hexponent] at hspec
    exact hspec h

/-! ### Decimals beyond all doubles -/

/-- A canonical form beyond the range of doubles is packed as infinity. -/
theorem pack_of_two_zpow_le {s : Sign} (hm : 0 < m) (h : IsCanonical m e)
    (hrange : (2 : ℚ) ^ (1024 : ℤ) ≤ m * 2 ^ e) :
    UnpackedFloat.pack .binary64 (.finite s m e hm) =
      UnpackedFloat.pack .binary64 (.infinity s) := by
  have hgreat : 1024 < e + 53 :=
    (zpow_lt_zpow_iff_right₀ (by norm_num : (1 : ℚ) < 2)).1 (hrange.trans_lt h.mul_lt)
  have hbiased : 2 ^ 11 ≤ (e + Format.binary64.exponentBias +
      Format.binary64.mantissaBitsWithoutImplicit).toNat + 1 := by
    change 2 ^ 11 ≤ (e + 1023 + 52).toNat + 1
    omega
  rw [UnpackedFloat.pack]
  exact if_pos hbiased

theorem pack_infinity : Float.ofModel (.pack (.infinity .positive)) = 1.0 / 0.0 := by
  decide

/-- A reduced form beyond the range of doubles is packed into infinity. -/
theorem IsReduced.pack_eq_infinity {u : UnpackedFloat} (h : IsReduced u)
    (hrange : 2 ^ (1024 : ℤ) ≤ unpackedValue u) : Float.ofModel (.pack u) = 1.0 / 0.0 := by
  have hpositive := (two_zpow_pos 1024).trans_le hrange
  cases h with
  | zero s =>
    rw [unpackedValue_zero] at hpositive
    exact absurd hpositive (lt_irrefl 0)
  | @finite s m e h hm =>
    have hmagnitude : (0 : ℚ) < m * 2 ^ e := by positivity
    rw [unpackedValue_finite] at hrange hpositive
    cases s with
    | negative =>
      rw [signFactor_negative] at hpositive
      linarith
    | positive =>
      rw [signFactor_positive, one_mul] at hrange
      have hpack : Float.Model.pack (.finite .positive m e hm) = .pack (.infinity .positive) := by
        simp only [Float.Model.pack, pack_of_two_zpow_le hm h hrange]
      rw [hpack, pack_infinity]

theorem ofScientific_eq_infinity (h : 2 ^ (1024 : ℤ) ≤ nearest (m * 10 ^ e)) :
    Float.ofModel (Float.Model.ofScientific m e) = 1.0 / 0.0 := by
  rcases le_or_gt e 2048 with hsmall | hgreat
  · obtain ⟨hreduced, hvalue⟩ := ofScientific_reduced (m := m) (.inr hsmall)
    exact hreduced.pack_eq_infinity (hvalue ▸ h)
  · have hzero : m ≠ 0 := by
      rintro rfl
      rw [Nat.cast_zero, zero_mul, nearest_zero] at h
      exact absurd h (not_le.2 (two_zpow_pos 1024))
    have hinfinite : UnpackedFloat.ofScientific .binary64 m e = .infinity .positive := by
      rw [UnpackedFloat.ofScientific, dif_neg hzero]
      exact if_pos hgreat
    rw [Float.Model.ofScientific, hinfinite, pack_infinity]

/-- Digits and a power of ten that are doubles themselves are not beyond all doubles. -/
theorem nearest_lt_of_small {m k : ℕ} (hm : m < 2 ^ 53) (hk : k ≤ 22) (s : Bool) :
    nearest (m * 10 ^ (if s then -(k : ℤ) else k)) < 2 ^ (1024 : ℤ) := by
  have hpower : (10 : ℚ) ^ (if s then -(k : ℤ) else k) ≤ 10 ^ (22 : ℤ) := by
    refine zpow_le_zpow_right₀ (by norm_num) ?_
    split <;> omega
  have hdigits : (m : ℚ) ≤ 2 ^ 53 := by exact_mod_cast hm.le
  have hle : (m : ℚ) * 10 ^ (if s then -(k : ℤ) else k) ≤ 2 ^ (200 : ℤ) :=
    calc (m : ℚ) * 10 ^ (if s then -(k : ℤ) else k)
        ≤ 2 ^ 53 * 10 ^ (22 : ℤ) := mul_le_mul hdigits hpower (ten_zpow_pos _).le (by norm_num)
      _ ≤ 2 ^ (200 : ℤ) := by norm_num
  have hself := nearest_two_zpow (show -1074 ≤ (200 : ℤ) by norm_num)
  exact (hself ▸ nearest_mono hle).trans_lt (two_zpow_lt (by norm_num))

/-- **The double of a decimal beyond all doubles** is infinity. -/
theorem toFloat_eq_infinity {d : Decimal} (h : 2 ^ (1024 : ℤ) ≤ nearest d.toRat) :
    d.toFloat = 1.0 / 0.0 := by
  rw [Decimal.toFloat]
  split
  · rfl
  · have hexponent := signed_natAbs d.exponent
    rw [Decimal.toRat, ← hexponent] at h
    rw [Float.ofScientific]
    split
    · next hsmall => exact absurd h (not_le.2 (nearest_lt_of_small hsmall.1 hsmall.2 _))
    · generalize decide (d.exponent < 0) = s at h ⊢
      cases s <;> exact ofScientific_eq_infinity h

/-- The double nearest to a number: the one whose value is nearest on the grid of doubles, and
infinity where that is beyond all doubles. -/
structure IsNearestDouble (q : ℚ) (x : Float) : Prop where
  inRange : nearest q < 2 ^ (1024 : ℤ) → x.isFinite ∧ value x = nearest q
  beyond : 2 ^ (1024 : ℤ) ≤ nearest q → x = 1.0 / 0.0

theorem isNearestDouble_toFloat (d : Decimal) : IsNearestDouble d.toRat d.toFloat :=
  ⟨toFloat_spec, toFloat_eq_infinity⟩

end Decimals

end Double

end SolidScene
