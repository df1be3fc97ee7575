import Mathlib

/-!
# Doubles in canonical form

Arithmetic unpacks a double into a sign, a significand and an exponent, and packs the result.  A
finite double is unpacked in canonical form: its significand has 53 bits, unless the exponent is the
least there is.  Rounding restores this form when nothing but zeros has been put after the
significand, and packing undoes unpacking.  So a quotient by one is the dividend, bit for bit.
-/

namespace SolidScene.Double

open Float.Model Float.Model.UnpackedFloat

/-- A significand and an exponent as a finite double has them. -/
def IsCanonical (m : Nat) (e : Int) : Prop :=
  m.log2 = 52 ∧ -1074 ≤ e ∨ m.log2 < 52 ∧ e = -1074

/-! ### Rounding -/

section Rounding

variable {m : Nat} {e : Int}

theorem IsCanonical.targetExponent_eq (h : IsCanonical m e) :
    Format.binary64.targetExponent (totalExponent m e) = e := by
  simp only [Format.targetExponent, totalExponent, Format.mantissaBits, Format.minExponent]
  rcases h with ⟨hlog, he⟩ | ⟨hlog, rfl⟩
  · omega
  · omega

theorem log2_mul_two_pow (hm : 0 < m) (k : Nat) : (m * 2 ^ k).log2 = m.log2 + k := by
  induction k with
  | zero => simp
  | succ k ih =>
    have hne : m * 2 ^ k ≠ 0 := Nat.ne_of_gt (Nat.mul_pos hm (Nat.two_pow_pos k))
    rw [Nat.pow_succ', Nat.mul_left_comm, Nat.log2_two_mul hne, ih]
    omega

/-- Shifting zeros out of a significand loses nothing. -/
theorem shiftRight_exact (m k : Nat) :
    ExtendedMantissa.ofMantissaAndAccuracy (m * 2 ^ k) .exact >>> k =
      ExtendedMantissa.ofMantissaAndAccuracy m .exact := by
  change k.repeat ExtendedMantissa.shiftRightOne _ = _
  induction k generalizing m with
  | zero => simp [Nat.repeat]
  | succ k ih =>
    have hsplit : m * 2 ^ (k + 1) = m * 2 * 2 ^ k := by rw [Nat.pow_succ', Nat.mul_assoc]
    rw [Nat.repeat, hsplit, ih]
    simp [ExtendedMantissa.shiftRightOne, ExtendedMantissa.ofMantissaAndAccuracy]

theorem IsCanonical.shiftToTargetExponent_eq (h : IsCanonical m e) (hm : 0 < m) (k : Nat) :
    shiftToTargetExponent .binary64 (m * 2 ^ k) (e - k) .exact =
      (ExtendedMantissa.ofMantissaAndAccuracy m .exact, e) := by
  have htotal : totalExponent (m * 2 ^ k) (e - k) = totalExponent m e := by
    rw [totalExponent, totalExponent, log2_mul_two_pow hm]
    omega
  have hamount : (e - (e - k)).toNat = k := by omega
  have hexponent : e - k + k = e := by omega
  rw [shiftToTargetExponent, htotal, h.targetExponent_eq, shiftToExponent, hamount,
    shiftRight_exact, hexponent]

/-- Rounding a canonical significand with zeros after it gives the significand. -/
theorem IsCanonical.roundWithAccuracy_eq (h : IsCanonical m e) (hm : 0 < m) (s : Sign) (k : Nat) :
    roundWithAccuracy .binary64 s (m * 2 ^ k) (e - k) .exact = .finite s m e hm := by
  have hagain := h.shiftToTargetExponent_eq hm 0
  rw [Nat.pow_zero, Nat.mul_one, Int.natCast_zero, Int.sub_zero] at hagain
  have hrounded : (ExtendedMantissa.ofMantissaAndAccuracy m .exact).roundedMantissa = m := rfl
  simp only [roundWithAccuracy, h.shiftToTargetExponent_eq hm k, hrounded, hagain]
  rw [dif_neg]
  · rfl
  · exact Nat.ne_of_gt hm

end Rounding

/-! ### Division by one -/

section Division

variable {m : Nat} {e : Int}

/-- The quotient by one is exact: it has the significand, with zeros after it. -/
theorem IsCanonical.divCore_one (h : IsCanonical m e) :
    ∃ k : Nat, divCore .binary64 m e (2 ^ 52) (-52) = (m * 2 ^ k, e - k, .exact) := by
  have hone : totalExponent (2 ^ 52) (-52) = 1 := by decide
  have hle : Format.binary64.targetExponent (totalExponent m e - 1) ≤ e := by
    simp only [Format.targetExponent, totalExponent, Format.mantissaBits, Format.minExponent]
    rcases h with ⟨hlog, he⟩ | ⟨hlog, rfl⟩
    · omega
    · omega
  obtain ⟨k, hk⟩ : ∃ k : Nat, Format.binary64.targetExponent (totalExponent m e - 1) = e - k :=
    ⟨(e - Format.binary64.targetExponent (totalExponent m e - 1)).toNat, by omega⟩
  have htarget : min (e - -52) (e - k) = e - k := by omega
  have hamount : (e - -52 - (e - k)).toNat = k + 52 := by omega
  have hshift : m <<< (k + 52) = m * 2 ^ k * 2 ^ 52 := by
    rw [Nat.shiftLeft_eq, Nat.pow_add, Nat.mul_assoc]
  refine ⟨k, ?_⟩
  simp only [divCore, hone, hk, htarget, hamount, hshift]
  rw [Nat.mul_div_cancel _ (by decide), Nat.mul_mod_left]
  rfl

theorem IsCanonical.div_one (h : IsCanonical m e) (hm : 0 < m) (s : Sign)
    (hone : 0 < 2 ^ 52) :
    UnpackedFloat.div .binary64 (.finite s m e hm) (.finite .positive (2 ^ 52) (-52) hone) =
      .finite s m e hm := by
  obtain ⟨k, hk⟩ := h.divCore_one
  have hsign : s / .positive = s := by cases s <;> rfl
  simp only [UnpackedFloat.div, hk, hsign, h.roundWithAccuracy_eq hm s k]

end Division

/-! ### The unpacked double -/

theorem toNat_one_append (v : BitVec 52) : (1#1 ++ v).toNat = 2 ^ 52 + v.toNat := by
  rw [BitVec.toNat_append, ← Nat.shiftLeft_add_eq_or_of_lt v.isLt]
  rfl

/-- A significand with the implicit bit has 53 bits. -/
theorem log2_one_append (v : BitVec 52) : (1#1 ++ v).toNat.log2 = 52 := by
  rw [toNat_one_append, Nat.log2_eq_iff]
  · have := v.isLt
    omega
  · omega

/-- A significand without the implicit bit has fewer than 53 bits. -/
theorem log2_toNat_lt (v : BitVec 52) : v.toNat.log2 < 52 := by
  by_cases hzero : v.toNat = 0
  · rw [hzero, Nat.log2_zero]
    decide
  · exact (Nat.log2_lt hzero).2 v.isLt

/-- A double divided by one is unpacked as the double. -/
theorem div_unpack_one (b : BitVec Format.binary64.numBits) (hone : 0 < 2 ^ 52) :
    UnpackedFloat.div .binary64 (UnpackedFloat.unpack .binary64 b)
        (.finite .positive (2 ^ 52) (-52) hone) =
      UnpackedFloat.unpack .binary64 b := by
  have hsign (s : Sign) : s / .positive = s := by cases s <;> rfl
  have hbias : (Format.binary64.exponentBias : Int) = 1023 := rfl
  rw [UnpackedFloat.unpack]
  split
  · split
    · rw [UnpackedFloat.div, hsign]
    · rfl
  · next hinfinite =>
    split
    · next hleast =>
      split
      · rw [UnpackedFloat.div, hsign]
      · refine IsCanonical.div_one (Or.inr ⟨log2_toNat_lt _, ?_⟩) _ _ _
        rw [hleast, hbias]
        rfl
    · next hpositive =>
      have hne : (unpackExponent b).toNat ≠ 0 := fun h => hpositive (BitVec.eq_of_toNat_eq h)
      have hwidth : (Format.binary64.mantissaBitsWithoutImplicit : Int) = 52 := rfl
      refine IsCanonical.div_one (Or.inl ⟨log2_one_append _, ?_⟩) _ _ _
      rw [hbias, hwidth]
      omega

/-- Packing undoes unpacking. -/
theorem model_pack_unpack (x : Float.Model) : Float.Model.pack x.unpack = x := by
  obtain ⟨bits, hvalid⟩ := x
  simp only [Float.Model.pack, Float.Model.unpack, pack_unpack_of_valid hvalid]

/-- **A quotient by one is the dividend.** -/
theorem div_one (x : Float) : x / 1.0 = x := by
  have hone : (1.0 : Float).toModel.unpack = .finite .positive (2 ^ 52) (-52) (by decide) := rfl
  have hquotient : x.toModel.div (1.0 : Float).toModel = x.toModel := by
    rw [Float.Model.div, hone, Float.Model.unpack, div_unpack_one]
    exact model_pack_unpack x.toModel
  calc x / 1.0
      = Float.ofModel (x.toModel.div (1.0 : Float).toModel) := rfl
    _ = x := by rw [hquotient]

end SolidScene.Double
