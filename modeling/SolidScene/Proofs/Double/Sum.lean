import SolidScene.Proofs.Double.Product
import SolidScene.Proofs.Double.Sign

/-!
# Sums and differences of doubles

Two significands are brought to the lesser of their exponents and added there, and the sum is
rounded once (`IsReduced.add_spec`).  To subtract a double is to add the negated one, bit for bit
(`float_sub_eq_add_neg`).  So sums and differences of finite doubles are the exact ones rounded, as
long as these are in range (`add_spec`, `sub_spec`), and they are finite only if both operands are
(`isFinite_of_isFinite_add`, `isFinite_of_isFinite_sub`).
-/

namespace SolidScene.Double

open Float.Model
open Float.Model.UnpackedFloat (Sign)

/-! ### Sums of unpacked doubles -/

section Unpacked

variable {s t : Sign} {m n : ℕ} {e d : ℤ}

theorem cast_apply (s : Sign) (m : ℕ) : ((s.apply m : ℤ) : ℚ) = signFactor s * m := by
  cases s with
  | negative => rw [signFactor_negative, neg_one_mul, Sign.apply, Int.cast_neg, Int.cast_natCast]
  | positive => rw [signFactor_positive, one_mul, Sign.apply, Int.cast_natCast]

/-- A signed significand is rounded by its magnitude. -/
theorem normalize_spec (c : ℤ) (e : ℤ) (s : Sign) :
    IsReduced (UnpackedFloat.normalize .binary64 c e s) ∧
      unpackedValue (UnpackedFloat.normalize .binary64 c e s) = nearest (c * 2 ^ e) := by
  rw [UnpackedFloat.normalize]
  rcases lt_trichotomy c 0 with h | rfl | h
  · obtain ⟨m, hm⟩ := Int.eq_ofNat_of_zero_le (Int.neg_nonneg.2 h.le)
    obtain ⟨hreduced, hvalue⟩ := round_spec (s := .negative) (m := m) (e := e) (by omega)
    rw [compare_lt_iff_lt.2 h, hm, Int.toNat_natCast]
    refine ⟨hreduced, hvalue.trans ?_⟩
    rw [show c = -m by omega, signFactor_negative, neg_one_mul, ← nearest_neg, Int.cast_neg,
      Int.cast_natCast, neg_mul]
  · rw [compare_eq_iff_eq.2 rfl, Int.cast_zero, zero_mul, nearest_zero]
    exact ⟨.zero s, rfl⟩
  · obtain ⟨m, rfl⟩ := Int.eq_ofNat_of_zero_le h.le
    obtain ⟨hreduced, hvalue⟩ := round_spec (s := .positive) (m := m) (e := e) (by omega)
    rw [compare_gt_iff_gt.2 h, Int.toNat_natCast]
    refine ⟨hreduced, hvalue.trans ?_⟩
    rw [signFactor_positive, one_mul, Int.cast_natCast]

/-- A significand is brought to a lesser exponent without loss. -/
theorem decreaseExponent_value (h : d ≤ e) :
    ((UnpackedFloat.decreaseExponent m e d).1 : ℚ) * 2 ^ d = m * 2 ^ e := by
  obtain ⟨k, hk⟩ := Int.eq_ofNat_of_zero_le (Int.sub_nonneg.2 h)
  rw [UnpackedFloat.decreaseExponent, hk, Int.toNat_natCast, Nat.shiftLeft_eq,
    show e = k + d by omega, two_zpow_add, zpow_natCast]
  push_cast
  ring

/-- The sum of two finite numbers, in any form. -/
theorem add_finite_spec (hm : 0 < m) (hn : 0 < n) :
    let u := UnpackedFloat.add .binary64 (.finite s m e hm) (.finite t n d hn)
    IsReduced u ∧ unpackedValue u =
      nearest (unpackedValue (.finite s m e hm) + unpackedValue (.finite t n d hn)) := by
  have hsum : unpackedValue (.finite s m e hm) + unpackedValue (.finite t n d hn) =
      ((s.apply (UnpackedFloat.decreaseExponent m e (min e d)).1 +
        t.apply (UnpackedFloat.decreaseExponent n d (min e d)).1 : ℤ) : ℚ) * 2 ^ min e d := by
    rw [Int.cast_add, cast_apply, cast_apply, add_mul, mul_assoc, mul_assoc,
      decreaseExponent_value (min_le_left e d), decreaseExponent_value (min_le_right e d)]
    rfl
  rw [hsum]
  exact normalize_spec _ _ _

end Unpacked

/-- The sum of two numbers in reduced form. -/
theorem IsReduced.add_spec {u v : UnpackedFloat} (hu : IsReduced u) (hv : IsReduced v) :
    IsReduced (UnpackedFloat.add .binary64 u v) ∧
      unpackedValue (UnpackedFloat.add .binary64 u v) =
        nearest (unpackedValue u + unpackedValue v) := by
  cases hu with
  | zero s =>
    cases hv with
    | zero t =>
      rw [unpackedValue_zero, unpackedValue_zero, add_zero, nearest_zero, UnpackedFloat.add]
      split
      · exact ⟨.zero _, rfl⟩
      · exact ⟨.zero _, rfl⟩
    | finite t h hn =>
      have hv := IsReduced.finite t h hn
      rw [unpackedValue_zero, zero_add, hv.nearest_unpackedValue]
      exact ⟨hv, rfl⟩
  | finite s h hm =>
    cases hv with
    | zero t =>
      have hu := IsReduced.finite s h hm
      rw [unpackedValue_zero, add_zero, hu.nearest_unpackedValue]
      exact ⟨hu, rfl⟩
    | finite t h' hn => exact add_finite_spec hm hn

/-! ### Differences as sums -/

theorem apply_neg (s : Sign) (c : ℤ) : (-s).apply c = -s.apply c := by
  cases s with
  | negative => exact (neg_neg c).symm
  | positive => rfl

/-- To subtract is to add the negated number. -/
theorem unpacked_sub_eq_add_neg (u v : UnpackedFloat) :
    UnpackedFloat.sub .binary64 u v = UnpackedFloat.add .binary64 u v.neg := by
  cases u with
  | notANumber => rfl
  | infinity s => cases v <;> rfl
  | zero s => cases v <;> rfl
  | finite s m e hm =>
    cases v with
    | finite t n d hn =>
      simp only [UnpackedFloat.sub, UnpackedFloat.neg, UnpackedFloat.add, apply_neg,
        Int.sub_eq_add_neg]
    | _ => rfl

/-- A double is negated in its unpacked form. -/
theorem unpack_neg (x : Float) : (-x).toModel.unpack = x.toModel.unpack.neg := by
  change (Float.Model.pack x.toModel.unpack.neg).unpack = x.toModel.unpack.neg
  by_cases hx : x.isFinite
  · obtain ⟨hreduced, hvalue⟩ := (isReduced_unpack hx).neg_spec
    exact unpack_pack hreduced (by rw [hvalue, abs_neg]; exact abs_value_lt x)
  · replace hx : ¬ x.toModel.unpack.isFinite = true := hx
    cases h : x.toModel.unpack with
    | notANumber => exact unpack_pack_notANumber
    | infinity s => exact unpack_pack_infinity (-s)
    | _ => exact absurd (h ▸ rfl) hx

section Floats

variable {x y : Float}

/-- **A difference** is the sum with the negated double, bit for bit. -/
theorem float_sub_eq_add_neg (x y : Float) : x - y = x + -y := by
  change Float.ofModel (.pack (UnpackedFloat.sub .binary64 x.toModel.unpack y.toModel.unpack)) =
    Float.ofModel (.pack (UnpackedFloat.add .binary64 x.toModel.unpack (-y).toModel.unpack))
  rw [unpacked_sub_eq_add_neg, unpack_neg]

theorem isFinite_neg (x : Float) : (-x).isFinite = x.isFinite := by
  change (-x).toModel.unpack.isFinite = x.toModel.unpack.isFinite
  rw [unpack_neg]
  cases x.toModel.unpack <;> rfl

/-! ### Sums and differences in range -/

/-- **The sum of finite doubles** is the exact sum rounded, if that is in range. -/
theorem add_spec (hx : x.isFinite) (hy : y.isFinite)
    (hrange : |nearest (value x + value y)| < 2 ^ (1024 : ℤ)) :
    (x + y).isFinite ∧ value (x + y) = nearest (value x + value y) := by
  obtain ⟨hreduced, hvalue⟩ := (isReduced_unpack hx).add_spec (isReduced_unpack hy)
  have hpack := hreduced.pack_spec (by rwa [hvalue])
  rwa [hvalue] at hpack

/-- **The difference of finite doubles** is the exact difference rounded, if that is in range. -/
theorem sub_spec (hx : x.isFinite) (hy : y.isFinite)
    (hrange : |nearest (value x - value y)| < 2 ^ (1024 : ℤ)) :
    (x - y).isFinite ∧ value (x - y) = nearest (value x - value y) := by
  obtain ⟨hneg, hvalue⟩ := neg_spec hy
  rw [sub_eq_add_neg, ← hvalue] at hrange ⊢
  rw [float_sub_eq_add_neg]
  exact add_spec hx hneg hrange

/-- A summand that is not finite makes the sum so. -/
theorem isFinite_of_isFinite_add (h : (x + y).isFinite) : x.isFinite ∧ y.isFinite := by
  have hfinite := isFinite_of_isFinite_pack
    (u := UnpackedFloat.add .binary64 x.toModel.unpack y.toModel.unpack) h
  change x.toModel.unpack.isFinite = true ∧ y.toModel.unpack.isFinite = true
  generalize x.toModel.unpack = u at hfinite ⊢
  generalize y.toModel.unpack = v at hfinite ⊢
  cases u with
  | notANumber => cases hfinite
  | infinity s =>
    cases v with
    | infinity t => cases s <;> cases t <;> cases hfinite
    | _ => cases hfinite
  | _ =>
    cases v with
    | infinity t => cases hfinite
    | notANumber => cases hfinite
    | _ => exact ⟨rfl, rfl⟩

theorem isFinite_of_isFinite_sub (h : (x - y).isFinite) : x.isFinite ∧ y.isFinite := by
  rw [float_sub_eq_add_neg] at h
  rw [← isFinite_neg y]
  exact isFinite_of_isFinite_add h

/-- A finite sum is the exact sum rounded. -/
theorem value_add_of_isFinite (h : (x + y).isFinite) :
    value (x + y) = nearest (value x + value y) := by
  obtain ⟨hx, hy⟩ := isFinite_of_isFinite_add h
  obtain ⟨hreduced, hvalue⟩ := (isReduced_unpack hx).add_spec (isReduced_unpack hy)
  have hrange := hreduced.abs_lt_of_isFinite h
  rw [hvalue] at hrange
  exact (add_spec hx hy hrange).2

/-- A finite difference is the exact difference rounded. -/
theorem value_sub_of_isFinite (h : (x - y).isFinite) :
    value (x - y) = nearest (value x - value y) := by
  have hy := (isFinite_of_isFinite_sub h).2
  rw [float_sub_eq_add_neg] at h ⊢
  rw [value_add_of_isFinite h, (neg_spec hy).2, sub_eq_add_neg]

end Floats

end SolidScene.Double
