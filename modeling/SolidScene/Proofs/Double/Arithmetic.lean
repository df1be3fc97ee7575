import SolidScene.Proofs.Double.Value

/-!
# Products and quotients of doubles

Arithmetic cuts the exact result off at some binary place and keeps two bits of what follows: the
first, and whether there is anything after it.  That is enough to round (`Represents`), so the
result of finite doubles is the exact one rounded, as long as that is in the range of doubles
(`value_mul`, `value_div`).
-/

namespace SolidScene.Double

open Float.Model
open Float.Model.UnpackedFloat (Sign Accuracy ExtendedMantissa roundWithAccuracy
  shiftToTargetExponent shiftToExponent accuracyOfFraction divCore)

/-! ### Significands with two more bits -/

/-- An extended significand stands for a number: its significand and the round bit are the digits of
the number, and the sticky bit tells whether there are any after them. -/
def Represents (em : ExtendedMantissa) (r : ℚ) : Prop :=
  ∃ t : ℚ, 0 ≤ t ∧ t < 1 ∧ (em.stickyBit = true ↔ 0 < t) ∧
    r = em.mantissa + (em.roundBit.toNat + t) / 2

namespace Represents

variable {em : ExtendedMantissa} {r : ℚ} {m : ℕ}

theorem mantissa_le (h : Represents em r) : em.mantissa ≤ r := by
  obtain ⟨t, ht0, -, -, rfl⟩ := h
  have : (0 : ℚ) ≤ em.roundBit.toNat := Nat.cast_nonneg _
  linarith

theorem lt_mantissa_add_one (h : Represents em r) : r < em.mantissa + 1 := by
  obtain ⟨t, -, ht1, -, rfl⟩ := h
  have : (em.roundBit.toNat : ℚ) ≤ 1 := by exact_mod_cast Bool.toNat_le em.roundBit
  linarith

theorem shiftRightOne (h : Represents em r) : Represents em.shiftRightOne (r / 2) := by
  obtain ⟨t, ht0, ht1, hsticky, rfl⟩ := h
  have hsplit : (em.mantissa : ℚ) = 2 * (em.mantissa / 2 : ℕ) + (em.mantissa % 2 : ℕ) := by
    exact_mod_cast (Nat.div_add_mod em.mantissa 2).symm
  have hround : (em.mantissa % 2 != 0).toNat = em.mantissa % 2 := by
    rcases Nat.mod_two_eq_zero_or_one em.mantissa with h | h <;> rw [h] <;> rfl
  refine ⟨(em.roundBit.toNat + t) / 2, ?_, ?_, ?_, ?_⟩
  · positivity
  · have : (em.roundBit.toNat : ℚ) ≤ 1 := by exact_mod_cast Bool.toNat_le em.roundBit
    linarith
  · cases hbit : em.roundBit with
    | true =>
      have : 0 < 1 + t := by linarith
      simp [ExtendedMantissa.shiftRightOne, hbit, this]
    | false => simp [ExtendedMantissa.shiftRightOne, hbit, hsticky]
  · simp only [ExtendedMantissa.shiftRightOne, hround]
    linarith

theorem shiftRight (h : Represents em r) (k : ℕ) : Represents (em >>> k) (r / 2 ^ k) := by
  change Represents (k.repeat ExtendedMantissa.shiftRightOne em) _
  induction k with
  | zero => simpa [Nat.repeat] using h
  | succ k ih =>
    rw [Nat.repeat, pow_succ, ← div_div]
    exact ih.shiftRightOne

/-- The two bits tell the nearest integer. -/
theorem roundedMantissa_eq (h : Represents em r) : (em.roundedMantissa : ℤ) = roundEven r := by
  obtain ⟨t, ht0, ht1, hsticky, rfl⟩ := h
  obtain ⟨m, round, sticky⟩ := em
  cases round with
  | false =>
    -- Less than half a step above the significand.
    have hdown : roundEven (m + ((false.toNat : ℚ) + t) / 2) = m := by
      refine roundEven_eq_of_abs_lt ?_
      rw [Bool.toNat_false, abs_lt]
      push_cast
      constructor <;> linarith
    cases sticky <;> exact hdown.symm
  | true =>
    cases sticky with
    | false =>
      -- Half a step above.
      have hzero : t = 0 := le_antisymm (not_lt.1 (mt hsticky.2 Bool.false_ne_true)) ht0
      have hmod : (m : ℚ) + ((true.toNat : ℚ) + t) / 2 = m + 1 / 2 := by
        rw [hzero, Bool.toNat_true]
        norm_num
      rw [hmod]
      change ((m + m % 2 : ℕ) : ℤ) = _
      refine (roundEven_eq ?_ fun _ => by omega).symm
      rcases Nat.mod_two_eq_zero_or_one m with h | h <;> rw [h] <;> push_cast <;> rw [abs_le] <;>
        constructor <;> linarith
    | true =>
      -- More than half a step above.
      have hpos : 0 < t := hsticky.1 rfl
      change ((m + 1 : ℕ) : ℤ) = _
      refine (roundEven_eq_of_abs_lt ?_).symm
      rw [Bool.toNat_true, abs_lt]
      push_cast
      constructor <;> linarith

theorem ofNat (m : ℕ) : Represents (.ofMantissaAndAccuracy m .exact) m :=
  ⟨0, le_rfl, one_pos, by simp [ExtendedMantissa.ofMantissaAndAccuracy],
    by simp [ExtendedMantissa.ofMantissaAndAccuracy]⟩

/-- A quotient of natural numbers, cut off at the point. -/
theorem ofQuotient (num : ℕ) {den : ℕ} (hden : 0 < den) :
    Represents (.ofMantissaAndAccuracy (num / den) (accuracyOfFraction (num % den) den))
      (num / den) := by
  have hpos : (0 : ℚ) < den := by exact_mod_cast hden
  have hlt : ((num % den : ℕ) : ℚ) < den := by exact_mod_cast Nat.mod_lt num hden
  rw [div_eq_div_add_mod_div num hden]
  generalize num / den = m at *
  generalize num % den = rest at *
  rcases Nat.eq_zero_or_pos rest with rfl | hrest
  · simpa [accuracyOfFraction] using ofNat m
  have hrest' : (0 : ℚ) < rest := by exact_mod_cast hrest
  rw [accuracyOfFraction, if_neg hrest.ne']
  rcases lt_trichotomy (2 * rest) den with h | h | h
  · have h' : 2 * (rest : ℚ) < den := by exact_mod_cast h
    rw [compare_lt_iff_lt.2 h]
    refine ⟨2 * (rest / den), by positivity, ?_, ?_, ?_⟩
    · rwa [← mul_div_assoc, div_lt_one hpos]
    · simpa [ExtendedMantissa.ofMantissaAndAccuracy] using div_pos hrest' hpos
    · simp [ExtendedMantissa.ofMantissaAndAccuracy]
  · have h' : 2 * (rest : ℚ) = den := by exact_mod_cast h
    rw [compare_eq_iff_eq.2 h]
    refine ⟨0, le_rfl, one_pos, by simp [ExtendedMantissa.ofMantissaAndAccuracy], ?_⟩
    simp only [ExtendedMantissa.ofMantissaAndAccuracy, Bool.toNat_true, ← h']
    field_simp
    norm_num
  · have h' : (den : ℚ) < 2 * rest := by exact_mod_cast h
    rw [compare_gt_iff_gt.2 h]
    refine ⟨2 * (rest / den) - 1, ?_, ?_, ?_, ?_⟩
    · rw [← mul_div_assoc, sub_nonneg, one_le_div hpos]
      exact h'.le
    · have : (rest : ℚ) / den < 1 := (div_lt_one hpos).2 hlt
      linarith
    · have : 1 < 2 * ((rest : ℚ) / den) := by rwa [← mul_div_assoc, one_lt_div hpos]
      simpa [ExtendedMantissa.ofMantissaAndAccuracy] using this
    · simp [ExtendedMantissa.ofMantissaAndAccuracy]

end Represents

/-! ### Rounding on the grid -/

section Rounding

variable {s : Sign} {m : ℕ} {e : ℤ}

theorem targetExponent_eq_max (m : ℕ) (e : ℤ) :
    Format.binary64.targetExponent (totalExponent m e) = max (m.log2 + e - 52) (-1074) := by
  simp only [Format.targetExponent, totalExponent, Format.mantissaBits, Format.minExponent]
  omega

/-- The grid on which arithmetic rounds is the one that belongs to the exact result, if the digits
that are left after the cut reach down to it. -/
theorem targetExponent_eq {r : ℚ} (hr : 0 < r) (hle : m ≤ r) (hlt : r < m + 1)
    (he : e ≤ stepExponent (r * 2 ^ e)) :
    Format.binary64.targetExponent (totalExponent m e) = stepExponent (r * 2 ^ e) := by
  have hscale := two_zpow_pos e
  have hpos : 0 < r * 2 ^ e := mul_pos hr hscale
  rw [targetExponent_eq_max]
  symm
  rcases Nat.eq_zero_or_pos m with rfl | hm
  · -- All digits are cut off, so the grid is the finest.
    rw [Nat.cast_zero, zero_add] at hlt
    have hleast : stepExponent (r * 2 ^ e) = -1074 := by
      by_contra hne
      have hbelow := two_zpow_stepExponent_le hpos.ne' hne
      have hpower := two_zpow_le (show e ≤ stepExponent (r * 2 ^ e) + 52 by omega)
      rw [abs_of_pos hpos] at hbelow
      have := mul_lt_mul_of_pos_right hlt hscale
      linarith
    rw [Nat.log2_zero]
    omega
  · have hself : (2 : ℚ) ^ (m.log2 : ℤ) ≤ r := (two_zpow_log2_le hm).trans hle
    have hsucc : r < (2 : ℚ) ^ ((m.log2 : ℤ) + 1) := hlt.trans_le (add_one_le_two_zpow_log2 m)
    refine stepExponent_eq hpos.ne' (le_max_right _ _) ?_ ?_
    · rw [abs_of_pos hpos]
      calc r * 2 ^ e < 2 ^ ((m.log2 : ℤ) + 1) * 2 ^ e := mul_lt_mul_of_pos_right hsucc hscale
        _ = 2 ^ ((m.log2 : ℤ) + 1 + e) := (two_zpow_add _ _).symm
        _ ≤ _ := two_zpow_le (by omega)
    · rcases le_or_gt ((m.log2 : ℤ) + e - 52) (-1074) with h | h
      · exact .inl (max_eq_right h)
      · refine .inr ?_
        rw [abs_of_pos hpos, max_eq_left h.le, show (m.log2 : ℤ) + e - 52 + 52 = m.log2 + e by ring,
          two_zpow_add]
        exact mul_le_mul_of_nonneg_right hself hscale.le

/-- A significand that rounding may give is brought into reduced form. -/
theorem isCanonical_shiftToTargetExponent (hm : m ≤ 2 ^ 53) (he : -1074 ≤ e)
    (hfull : e = -1074 ∨ 2 ^ 52 ≤ m) :
    (shiftToTargetExponent .binary64 m e .exact).1.mantissa *
        (2 : ℚ) ^ (shiftToTargetExponent .binary64 m e .exact).2 = m * 2 ^ e ∧
      IsCanonical (shiftToTargetExponent .binary64 m e .exact).1.mantissa
        (shiftToTargetExponent .binary64 m e .exact).2 := by
  rcases hm.eq_or_lt with rfl | hlt
  · -- One bit too many: the significand was rounded up to the next power of two.
    have hcanonical : IsCanonical (2 ^ 52) (e + 1) := by
      refine .inl ⟨by decide, by omega⟩
    have hshift := hcanonical.shiftToTargetExponent_eq (Nat.two_pow_pos 52) 1
    rw [show 2 ^ 52 * 2 ^ 1 = 2 ^ 53 by norm_num, show e + 1 - (1 : ℕ) = e by omega] at hshift
    rw [hshift]
    refine ⟨?_, hcanonical⟩
    change ((2 ^ 52 : ℕ) : ℚ) * 2 ^ (e + 1) = _
    rw [two_zpow_add]
    push_cast
    ring
  · have hcanonical : IsCanonical m e := by
      rcases hfull with rfl | h
      · rcases lt_or_ge m (2 ^ 52) with h | h
        · refine .inr ⟨?_, rfl⟩
          rcases Nat.eq_zero_or_pos m with rfl | hm
          · decide
          · exact (Nat.log2_lt hm.ne').2 h
        · exact .inl ⟨(Nat.log2_eq_iff (by omega)).2 ⟨h, hlt⟩, le_rfl⟩
      · exact .inl ⟨(Nat.log2_eq_iff (by omega)).2 ⟨h, hlt⟩, he⟩
    have hshift : shiftToTargetExponent .binary64 m e .exact =
        (.ofMantissaAndAccuracy m .exact, e) := by
      rw [shiftToTargetExponent, hcanonical.targetExponent_eq, shiftToExponent, sub_self]
      rw [Int.toNat_zero, Int.natCast_zero, add_zero]
      rfl
    rw [hshift]
    exact ⟨rfl, hcanonical⟩

/-- **Rounding gives the nearest number of the grid**, in reduced form. -/
theorem roundWithAccuracy_spec {accuracy : Accuracy} {r : ℚ} (hr : 0 < r)
    (h : Represents (.ofMantissaAndAccuracy m accuracy) r) (he : e ≤ stepExponent (r * 2 ^ e)) :
    IsReduced (roundWithAccuracy .binary64 s m e accuracy) ∧
      unpackedValue (roundWithAccuracy .binary64 s m e accuracy) =
        signFactor s * nearest (r * 2 ^ e) := by
  have hpos : 0 < r * 2 ^ e := mul_pos hr (two_zpow_pos e)
  have hmantissa : (ExtendedMantissa.ofMantissaAndAccuracy m accuracy).mantissa = m := by
    cases accuracy with
    | exact => rfl
    | inexact o => cases o <;> rfl
  have htarget := targetExponent_eq hr (hmantissa ▸ h.mantissa_le)
    (hmantissa ▸ h.lt_mantissa_add_one) he
  set step := stepExponent (r * 2 ^ e) with hstep
  obtain ⟨k, hk⟩ := Int.eq_ofNat_of_zero_le (Int.sub_nonneg.2 he)
  have hquotient : r / 2 ^ k = r * 2 ^ e / 2 ^ step := by
    rw [show step = e + k by omega, two_zpow_add, zpow_natCast,
      mul_comm ((2 : ℚ) ^ e), mul_div_mul_right _ _ (two_zpow_pos e).ne']
  set em := ExtendedMantissa.ofMantissaAndAccuracy m accuracy >>> k with hem
  have hrounded : (em.roundedMantissa : ℤ) = roundEven (r * 2 ^ e / 2 ^ step) :=
    hquotient ▸ (h.shiftRight k).roundedMantissa_eq
  have hnearest : (em.roundedMantissa : ℚ) * 2 ^ step = nearest (r * 2 ^ e) := by
    rw [nearest, ← hrounded, Int.cast_natCast]
  have hbounds := roundEven_stepExponent_bounds hpos
  rw [← hstep, ← hrounded] at hbounds
  have hupper : em.roundedMantissa ≤ 2 ^ 53 := by exact_mod_cast hbounds.1
  have hlower : step = -1074 ∨ 2 ^ 52 ≤ em.roundedMantissa := by exact_mod_cast hbounds.2
  have hfirst : shiftToTargetExponent .binary64 m e accuracy = (em, step) := by
    rw [shiftToTargetExponent, htarget, shiftToExponent, hk, hem]
    congr 1
    rw [Int.toNat_natCast]
    omega
  obtain ⟨hvalue, hcanonical⟩ :=
    isCanonical_shiftToTargetExponent hupper (neg_1074_le_stepExponent _) hlower
  simp only [roundWithAccuracy, hfirst]
  rw [← hnearest, ← hvalue]
  split
  · next hzero =>
    rw [hzero, Nat.cast_zero, zero_mul, mul_zero]
    exact ⟨.zero s, rfl⟩
  · exact ⟨.finite s hcanonical _, rfl⟩

theorem targetExponent_le_stepExponent (hm : 0 < m) :
    Format.binary64.targetExponent (totalExponent m e) ≤ stepExponent (m * 2 ^ e) := by
  rw [targetExponent_eq_max, max_le_iff]
  refine ⟨le_stepExponent ?_, neg_1074_le_stepExponent _⟩
  rw [abs_of_pos (by positivity), sub_add_cancel, two_zpow_add]
  exact mul_le_mul_of_nonneg_right (two_zpow_log2_le hm) (two_zpow_pos e).le

/-- Rounding of a number in any form. -/
theorem round_spec (hm : 0 < m) :
    IsReduced (UnpackedFloat.round .binary64 s m e) ∧
      unpackedValue (UnpackedFloat.round .binary64 s m e) = signFactor s * nearest (m * 2 ^ e) := by
  have htarget := targetExponent_le_stepExponent (e := e) hm
  rw [UnpackedFloat.round]
  generalize Format.binary64.targetExponent (totalExponent m e) = target at htarget ⊢
  set k := (e - target).toNat with hk
  have hsame : ((m * 2 ^ k : ℕ) : ℚ) * 2 ^ (e - k) = m * 2 ^ e := by
    have hsplit : (2 : ℚ) ^ e = 2 ^ k * 2 ^ (e - k) := by
      rw [← zpow_natCast (2 : ℚ), ← two_zpow_add]
      congr 1
      omega
    rw [hsplit]
    push_cast
    ring
  have hpos : (0 : ℚ) < (m * 2 ^ k : ℕ) := by exact_mod_cast Nat.mul_pos hm (Nat.two_pow_pos k)
  have hspec := roundWithAccuracy_spec (s := s) (e := e - k) hpos (Represents.ofNat _)
    (by rw [hsame]; omega)
  rw [hsame] at hspec
  simpa only [UnpackedFloat.decreaseExponent, ← hk, Nat.shiftLeft_eq] using hspec

end Rounding

/-! ### Products -/

section Product

variable {s t : Sign} {m n : ℕ} {e d : ℤ}

/-- The product of two finite numbers, in any form that has digits enough. -/
theorem mul_finite_spec (hm : 0 < m) (hn : 0 < n) (h : e + d ≤ -1074 ∨ 2 ^ 52 ≤ m * n) :
    let u := UnpackedFloat.mul .binary64 (.finite s m e hm) (.finite t n d hn)
    IsReduced u ∧ unpackedValue u =
      nearest (unpackedValue (.finite s m e hm) * unpackedValue (.finite t n d hn)) := by
  have hpos : (0 : ℚ) < (m * n : ℕ) := by exact_mod_cast Nat.mul_pos hm hn
  have hexponent : e + d ≤ stepExponent ((m * n : ℕ) * 2 ^ (e + d)) := by
    rcases h with h | h
    · exact h.trans (neg_1074_le_stepExponent _)
    · refine le_stepExponent ?_
      rw [abs_of_pos (mul_pos hpos (two_zpow_pos _)), add_comm, two_zpow_add]
      refine mul_le_mul_of_nonneg_right ?_ (two_zpow_pos _).le
      exact_mod_cast h
  obtain ⟨hreduced, hvalue⟩ :=
    roundWithAccuracy_spec (s := s * t) hpos (Represents.ofNat (m * n)) hexponent
  refine ⟨hreduced, ?_⟩
  change unpackedValue (roundWithAccuracy .binary64 (s * t) (m * n) (e + d) .exact) = _
  have hproduct : unpackedValue (.finite s m e hm) * unpackedValue (.finite t n d hn) =
      signFactor (s * t) * ((m * n : ℕ) * 2 ^ (e + d)) := by
    rw [unpackedValue_finite, unpackedValue_finite, signFactor_mul, two_zpow_add]
    push_cast
    ring
  rw [hvalue, hproduct, nearest_signFactor_mul]

/-- The product of two numbers in reduced form. -/
theorem IsReduced.mul_spec {u v : UnpackedFloat} (hu : IsReduced u) (hv : IsReduced v) :
    IsReduced (UnpackedFloat.mul .binary64 u v) ∧
      unpackedValue (UnpackedFloat.mul .binary64 u v) =
        nearest (unpackedValue u * unpackedValue v) := by
  cases hu with
  | zero s =>
    cases hv with
    | zero t => exact ⟨.zero _, by simp [UnpackedFloat.mul]⟩
    | finite t h hn => exact ⟨.zero _, by simp [UnpackedFloat.mul]⟩
  | @finite s m e h hm =>
    cases hv with
    | zero t => exact ⟨.zero _, by simp [UnpackedFloat.mul]⟩
    | @finite t n d h' hn =>
      refine mul_finite_spec hm hn ?_
      -- One of the significands is full unless both exponents are the least.
      by_cases he : e = -1074
      · by_cases hd : d = -1074
        · exact .inl (by omega)
        · exact .inr ((h'.two_pow_le hd).trans (Nat.le_mul_of_pos_left n hm))
      · exact .inr ((h.two_pow_le he).trans (Nat.le_mul_of_pos_right m hn))

end Product

/-! ### Quotients -/

section Quotient

variable {s t : Sign} {m n : ℕ} {e d : ℤ}

/-- The exponent with which a quotient is formed leaves digits enough. -/
theorem targetExponent_sub_le_stepExponent (hm : 0 < m) (hn : 0 < n) :
    Format.binary64.targetExponent (totalExponent m e - totalExponent n d) ≤
      stepExponent (m * 2 ^ e / (n * 2 ^ d)) := by
  have hm' : (0 : ℚ) < m := by exact_mod_cast hm
  have hn' : (0 : ℚ) < n := by exact_mod_cast hn
  have htarget : Format.binary64.targetExponent (totalExponent m e - totalExponent n d) =
      max (m.log2 + e - (n.log2 + d) - 53) (-1074) := by
    simp only [Format.targetExponent, totalExponent, Format.mantissaBits, Format.minExponent]
    omega
  rw [htarget, max_le_iff]
  refine ⟨le_stepExponent ?_, neg_1074_le_stepExponent _⟩
  rw [abs_of_pos (by positivity), le_div_iff₀ (by positivity)]
  have hself := two_zpow_log2_le hm
  have hsucc : (n : ℚ) ≤ 2 ^ ((n.log2 : ℤ) + 1) :=
    (lt_add_one _).le.trans (add_one_le_two_zpow_log2 n)
  calc (2 : ℚ) ^ (m.log2 + e - (n.log2 + d) - 53 + 52) * (n * 2 ^ d)
      ≤ 2 ^ (m.log2 + e - (n.log2 + d) - 53 + 52) * (2 ^ ((n.log2 : ℤ) + 1) * 2 ^ d) := by
        gcongr
    _ = 2 ^ (m.log2 : ℤ) * 2 ^ e := by
        rw [← two_zpow_add, ← two_zpow_add, ← two_zpow_add]
        congr 1
        ring
    _ ≤ m * 2 ^ e := by gcongr

/-- A dividend may be given more digits, with a smaller exponent for the quotient. -/
theorem div_mul_two_zpow_eq {c : ℤ} {k : ℕ} (hk : e - d - c = k) :
    ((m * 2 ^ k : ℕ) : ℚ) / n * 2 ^ c = m * 2 ^ e / (n * 2 ^ d) := by
  have hsplit : (2 : ℚ) ^ e = 2 ^ k * 2 ^ c * 2 ^ d := by
    rw [← zpow_natCast (2 : ℚ), ← two_zpow_add, ← two_zpow_add]
    congr 1
    omega
  have hscale := two_zpow_pos d
  rw [hsplit]
  push_cast
  field_simp

/-- The quotient of two finite numbers, in any form. -/
theorem div_finite_spec (hm : 0 < m) (hn : 0 < n) :
    let u := UnpackedFloat.div .binary64 (.finite s m e hm) (.finite t n d hn)
    IsReduced u ∧ unpackedValue u =
      nearest (unpackedValue (.finite s m e hm) / unpackedValue (.finite t n d hn)) := by
  have htarget := targetExponent_sub_le_stepExponent (e := e) (d := d) hm hn
  set target := Format.binary64.targetExponent (totalExponent m e - totalExponent n d) with hdef
  obtain ⟨k, hk⟩ := Int.eq_ofNat_of_zero_le (Int.sub_nonneg.2 (min_le_left (e - d) target))
  set num := m * 2 ^ k with hnum
  have hpos : (0 : ℚ) < num / n :=
    div_pos (by exact_mod_cast Nat.mul_pos hm (Nat.two_pow_pos k)) (by exact_mod_cast hn)
  have hquotient : (num : ℚ) / n * 2 ^ min (e - d) target = m * 2 ^ e / (n * 2 ^ d) :=
    div_mul_two_zpow_eq hk
  have hexponent : min (e - d) target ≤ stepExponent (num / n * 2 ^ min (e - d) target) := by
    rw [hquotient]
    exact (min_le_right _ _).trans htarget
  obtain ⟨hreduced, hvalue⟩ :=
    roundWithAccuracy_spec (s := s / t) hpos (Represents.ofQuotient num hn) hexponent
  have hcore : divCore .binary64 m e n d =
      (num / n, min (e - d) target, accuracyOfFraction (num % n) n) := by
    simp only [divCore, ← hdef, hk, Int.toNat_natCast, Nat.shiftLeft_eq]
    rfl
  have hdiv : UnpackedFloat.div .binary64 (.finite s m e hm) (.finite t n d hn) =
      roundWithAccuracy .binary64 (s / t) (num / n) (min (e - d) target)
        (accuracyOfFraction (num % n) n) := by
    simp only [UnpackedFloat.div, hcore]
  have hsigned : unpackedValue (.finite s m e hm) / unpackedValue (.finite t n d hn) =
      signFactor (s / t) * (m * 2 ^ e / (n * 2 ^ d)) := by
    rw [unpackedValue_finite, unpackedValue_finite, signFactor_div, mul_div_mul_comm,
      signFactor_div_signFactor]
  rw [hdiv]
  refine ⟨hreduced, ?_⟩
  rw [hvalue, hsigned, hquotient, nearest_signFactor_mul]

/-- The quotient of two numbers in reduced form, the divisor not being zero. -/
theorem IsReduced.div_spec {u v : UnpackedFloat} (hu : IsReduced u) (hv : IsReduced v)
    (hzero : unpackedValue v ≠ 0) :
    IsReduced (UnpackedFloat.div .binary64 u v) ∧
      unpackedValue (UnpackedFloat.div .binary64 u v) =
        nearest (unpackedValue u / unpackedValue v) := by
  cases hv with
  | zero t => exact absurd (unpackedValue_zero t) hzero
  | finite t h' hn =>
    cases hu with
    | zero s => exact ⟨.zero _, by simp [UnpackedFloat.div]⟩
    | finite s h hm => exact div_finite_spec hm hn

end Quotient

/-! ### Packed results -/

/-- A reduced form in range is the form of the double into which it is packed. -/
theorem IsReduced.pack_spec {u : UnpackedFloat} (h : IsReduced u)
    (hrange : |unpackedValue u| < 2 ^ (1024 : ℤ)) :
    (Float.ofModel (.pack u)).isFinite ∧ value (.ofModel (.pack u)) = unpackedValue u := by
  have hunpack := unpack_pack h hrange
  constructor
  · change (Float.Model.pack u).unpack.isFinite = true
    rw [hunpack]
    cases h <;> rfl
  · change unpackedValue (Float.Model.pack u).unpack = _
    rw [hunpack]

section Floats

variable {x y : Float}

/-- **The product of finite doubles** is the exact product rounded, if that is in range. -/
theorem mul_spec (hx : x.isFinite) (hy : y.isFinite)
    (hrange : |nearest (value x * value y)| < 2 ^ (1024 : ℤ)) :
    (x * y).isFinite ∧ value (x * y) = nearest (value x * value y) := by
  obtain ⟨hreduced, hvalue⟩ := (isReduced_unpack hx).mul_spec (isReduced_unpack hy)
  have hpack := hreduced.pack_spec (by rwa [hvalue])
  rwa [hvalue] at hpack

/-- **The quotient of finite doubles** is the exact quotient rounded, if that is in range. -/
theorem div_spec (hx : x.isFinite) (hy : y.isFinite) (hzero : value y ≠ 0)
    (hrange : |nearest (value x / value y)| < 2 ^ (1024 : ℤ)) :
    (x / y).isFinite ∧ value (x / y) = nearest (value x / value y) := by
  obtain ⟨hreduced, hvalue⟩ := (isReduced_unpack hx).div_spec (isReduced_unpack hy) hzero
  have hpack := hreduced.pack_spec (by rwa [hvalue])
  rwa [hvalue] at hpack

end Floats

end SolidScene.Double
