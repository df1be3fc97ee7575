import SolidScene.Decimal.Layout
import SolidScene.Proofs.Double.Arithmetic
import SolidScene.Proofs.Double.Exact

/-!
# Signs and zeros

A double other than zero carries a minus sign if its value is below zero (`isNegative_iff`), and to
negate a double is to negate its value (`neg_spec`).  Zeros of both signs are equal to each other
and to nothing else that is finite (`beq_iff`).
-/

namespace SolidScene.Double

open Float.Model
open Float.Model.UnpackedFloat (Sign unpackSign)

section Sign

variable {x y : Float} {v : ExactValue}

theorem signFactor_neg (s : Sign) : signFactor (-s) = -signFactor s := by
  cases s
  · exact (neg_neg (1 : ℚ)).symm
  · rfl

/-- The negated number in reduced form. -/
theorem IsReduced.neg_spec {u : UnpackedFloat} (h : IsReduced u) :
    IsReduced u.neg ∧ unpackedValue u.neg = -unpackedValue u := by
  cases h with
  | zero s => exact ⟨.zero (-s), neg_zero.symm⟩
  | finite s h hm =>
    refine ⟨.finite (-s) h hm, ?_⟩
    rw [UnpackedFloat.neg, unpackedValue_finite, unpackedValue_finite, signFactor_neg, neg_mul]

/-- **Negation** negates the value. -/
theorem neg_spec (hx : x.isFinite) : (-x).isFinite ∧ value (-x) = -value x := by
  obtain ⟨hreduced, hvalue⟩ := (isReduced_unpack hx).neg_spec
  have hpack := hreduced.pack_spec (by rw [hvalue, abs_neg]; exact abs_value_lt x)
  rw [hvalue] at hpack
  exact hpack

theorem beq_iff (hx : x.isFinite) (hy : y.isFinite) : (x == y) = true ↔ value x = value y := by
  have hcompare := (isReduced_unpack hx).compare_eq (isReduced_unpack hy)
  rw [show (x == y) = (x.toModel.unpack.compare y.toModel.unpack == some .eq) from rfl, hcompare,
    value, value, beq_iff_eq, Option.some_inj, compare_eq_iff_eq]

/-- The minus sign of a double is its first bit. -/
theorem isNegative_iff_unpackSign (x : Float) :
    isNegative x ↔
      Sign.ofBitVec (@unpackSign Format.binary64 x.toBits.toBitVec) = .negative := by
  have hbit : (@unpackSign Format.binary64 x.toBits.toBitVec).toNat =
      x.toBits.toNat / 2 ^ 63 := by
    have hlt := x.toBits.toNat_lt
    rw [unpackSign, BitVec.toNat_cast, BitVec.extractLsb_toNat]
    change x.toBits.toNat >>> 63 % 2 ^ 1 = _
    rw [Nat.shiftRight_eq_div_pow]
    omega
  have hzero : @unpackSign Format.binary64 x.toBits.toBitVec = 0#1 ↔
      x.toBits.toNat < 2 ^ 63 := by
    rw [← BitVec.toNat_inj, hbit]
    change _ = 0 ↔ _
    omega
  rw [isNegative, decide_eq_true_iff, Sign.ofBitVec]
  split
  · next h =>
    have := hzero.1 h
    simp only [ge_iff_le, UInt64.le_iff_toNat_le, reduceCtorEq, iff_false, not_le]
    exact this
  · next h =>
    have := mt hzero.2 h
    simp only [ge_iff_le, UInt64.le_iff_toNat_le, iff_true]
    exact Nat.le_of_not_lt this

theorem sign_eq_of_unpack_finite {b : BitVec Format.binary64.numBits} {s : Sign} {m : ℕ} {e : ℤ}
    {hm : 0 < m} (h : UnpackedFloat.unpack .binary64 b = .finite s m e hm) :
    Sign.ofBitVec (unpackSign b) = s := by
  rw [UnpackedFloat.unpack] at h
  split at h
  · split at h <;> cases h
  · split at h
    · split at h <;> cases h
      rfl
    · cases h
      rfl

theorem sign_eq_of_unpack_zero {b : BitVec Format.binary64.numBits} {s : Sign}
    (h : UnpackedFloat.unpack .binary64 b = .zero s) : Sign.ofBitVec (unpackSign b) = s := by
  rw [UnpackedFloat.unpack] at h
  split at h
  · split at h <;> cases h
  · split at h
    · split at h <;> cases h
      rfl
    · cases h

/-- The exact value of a double has the sign of the double. -/
theorem negative_of_ofFloat? (h : ExactValue.ofFloat? x = some v) : v.negative = isNegative x := by
  have hsign := isNegative_iff_unpackSign x
  rw [Bool.eq_iff_iff, hsign]
  unfold ExactValue.ofFloat? at h
  split at h <;> cases h <;> rename_i hunpack
  · exact iff_of_true rfl (sign_eq_of_unpack_finite hunpack)
  · exact iff_of_false Bool.false_ne_true fun h => by
      cases (sign_eq_of_unpack_finite hunpack).symm.trans h
  · exact iff_of_true rfl (sign_eq_of_unpack_zero hunpack)
  · exact iff_of_false Bool.false_ne_true fun h => by
      cases (sign_eq_of_unpack_zero hunpack).symm.trans h

/-- A double with a minus sign is minus its magnitude. -/
theorem value_eq_of_ofFloat? (h : ExactValue.ofFloat? x = some v) :
    value x = (if isNegative x then -1 else 1) * (v.mantissa * 2 ^ v.exponent) := by
  rw [(toRat_of_ofFloat?_eq h).2, ExactValue.toRat, numerator_div_denominator,
    negative_of_ofFloat? h]

end Sign

end SolidScene.Double
