import SolidScene.Decimal.Hundredths
import SolidScene.Proofs.Double.Value

/-!
# What is written about doubles

Numbers are written from the exact value of a double over the natural numbers.  That is its value
(`toRat_of_ofFloat?_eq`), and a length in a script is the value in hundredths, rounded
(`hundredths_eq`).
-/

namespace SolidScene

/-- The number that an exact value is. -/
def ExactValue.toRat (v : ExactValue) : ℚ :=
  (if v.negative then -1 else 1) * (v.numerator / v.denominator)

namespace Double

/-! ### Rounded quotients -/

/-- A quotient of natural numbers is rounded as a rational number is. -/
theorem roundQuotient_even_eq (num : ℕ) {den : ℕ} (hden : 0 < den) :
    (roundQuotient .even num den : ℤ) = roundEven (num / den) := by
  have hpos : (0 : ℚ) < den := by exact_mod_cast hden
  have hlt : (num % den : ℕ) < (den : ℚ) := by exact_mod_cast Nat.mod_lt num hden
  have hnonneg : (0 : ℚ) ≤ (num % den : ℕ) / den := by positivity
  have hone : ((num % den : ℕ) : ℚ) / den < 1 := (div_lt_one hpos).2 hlt
  rw [div_eq_div_add_mod_div num hden, roundQuotient]
  generalize num / den = low at *
  generalize num % den = rest at *
  -- Twice the rest is compared with the denominator, as the fraction is with a half.
  rcases lt_trichotomy (2 * rest) den with h | h | h
  · have hhalf : (rest : ℚ) / den < 1 / 2 := by
      rw [div_lt_div_iff₀ hpos two_pos]
      exact_mod_cast (by omega : rest * 2 < 1 * den)
    rw [if_pos (by simp [Tie.prefersLower, h])]
    refine (roundEven_eq_of_abs_lt ?_).symm
    rw [abs_lt]
    push_cast
    constructor <;> linarith
  · have hhalf : (rest : ℚ) / den = 1 / 2 := by
      rw [div_eq_div_iff hpos.ne' two_ne_zero]
      exact_mod_cast (by omega : rest * 2 = 1 * den)
    rw [hhalf]
    rcases Nat.mod_two_eq_zero_or_one low with heven | hodd
    · rw [if_pos (by simp [Tie.prefersLower, h, heven])]
      refine (roundEven_eq ?_ fun _ => by omega).symm
      rw [abs_le]
      push_cast
      constructor <;> linarith
    · rw [if_neg (by simp [Tie.prefersLower, h, hodd])]
      refine (roundEven_eq ?_ fun _ => by omega).symm
      rw [abs_le]
      push_cast
      constructor <;> linarith
  · have hhalf : 1 / 2 < (rest : ℚ) / den := by
      rw [div_lt_div_iff₀ two_pos hpos]
      exact_mod_cast (by omega : 1 * den < rest * 2)
    rw [if_neg (by simp [Tie.prefersLower, h.not_gt, h.ne'])]
    refine (roundEven_eq_of_abs_lt ?_).symm
    rw [abs_lt]
    push_cast
    constructor <;> linarith

/-! ### Exact values -/

section Exact

variable {x : Float} {v : ExactValue}

theorem numerator_div_denominator (v : ExactValue) :
    (v.numerator : ℚ) / v.denominator = v.mantissa * 2 ^ v.exponent := by
  have hexponent : v.exponent = v.exponent.toNat - (-v.exponent).toNat := by omega
  have hpower : (2 : ℚ) ^ v.exponent = 2 ^ v.exponent.toNat / 2 ^ (-v.exponent).toNat := by
    conv_lhs => rw [hexponent]
    rw [zpow_sub₀ two_ne_zero, zpow_natCast, zpow_natCast]
  rw [hpower, ← mul_div_assoc]
  change ((v.mantissa * 2 ^ v.exponent.toNat : ℕ) : ℚ) / (2 ^ (-v.exponent).toNat : ℕ) = _
  push_cast
  rfl

/-- The exact value of a finite double is its value. -/
theorem toRat_of_ofFloat?_eq (h : ExactValue.ofFloat? x = some v) :
    x.isFinite ∧ value x = ExactValue.toRat v := by
  have hfinite : x.isFinite = x.toModel.unpack.isFinite := rfl
  rw [hfinite, value, ExactValue.toRat, numerator_div_denominator]
  unfold ExactValue.ofFloat? at h
  split at h <;> cases h <;> rename_i hunpack <;> rw [hunpack] <;>
    simp [Float.Model.UnpackedFloat.isFinite]

theorem value_eq_div (h : ExactValue.ofFloat? x = some v) (hsign : v.negative = false) :
    x.isFinite ∧ value x = v.numerator / v.denominator := by
  obtain ⟨hfinite, hvalue⟩ := toRat_of_ofFloat?_eq h
  rw [ExactValue.toRat, hsign, if_neg Bool.false_ne_true, one_mul] at hvalue
  exact ⟨hfinite, hvalue⟩

theorem value_of_ofFloat? {m : ℕ} {e : ℤ} (h : ExactValue.ofFloat? x = some ⟨false, m, e⟩) :
    value x = m * 2 ^ e := by
  rw [(value_eq_div h rfl).2, numerator_div_denominator]

theorem exists_ofFloat?_eq (hx : x.isFinite) : ∃ v, ExactValue.ofFloat? x = some v := by
  have hreduced := isReduced_unpack hx
  unfold ExactValue.ofFloat?
  generalize x.toModel.unpack = u at hreduced
  cases hreduced with
  | zero s => cases s <;> exact ⟨_, rfl⟩
  | finite s h hm => cases s <;> exact ⟨_, rfl⟩

/-- **The length that a script shows** is the value in hundredths, rounded. -/
theorem hundredths_eq (hx : x.isFinite) : hundredths x = roundEven (100 * value x) := by
  obtain ⟨v, hv⟩ := exists_ofFloat?_eq hx
  have hvalue := (toRat_of_ofFloat?_eq hv).2
  have hrounded := roundQuotient_even_eq (100 * v.numerator) v.denominator_pos
  rw [Nat.cast_mul, mul_div_assoc] at hrounded
  rw [hundredths, hv, hvalue, ExactValue.toRat]
  cases hnegative : v.negative with
  | true => simp [hrounded, roundEven_neg, hnegative]
  | false => simp [hrounded, hnegative]

/-- The length that a script shows is half a hundredth away at most. -/
theorem abs_hundredths_sub_value_le (hx : x.isFinite) :
    |(hundredths x : ℚ) / 100 - value x| ≤ 1 / 200 := by
  have hstep := abs_roundEven_sub_le (100 * value x)
  rw [← hundredths_eq hx] at hstep
  have hscaled : (hundredths x : ℚ) / 100 - value x =
      ((hundredths x : ℚ) - 100 * value x) / 100 := by ring
  rw [hscaled, abs_div, abs_of_pos (by norm_num : (0 : ℚ) < 100)]
  linarith

end Exact

end Double

end SolidScene
