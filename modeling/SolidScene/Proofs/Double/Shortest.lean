import SolidScene.Decimal.Shortest
import SolidScene.Proofs.Double.Decimal

/-!
# The digits in which a double is written

The shortest decimal of a double is found on the grid of seventeen digits at the latest, since there
the decimals lie closer together than the doubles (`isSome_neighbour?`).  Whichever grid it comes
from, it is so near to the double that it rounds to it (`RoundsTo`) and has at most seventeen
digits, or is a power of ten (`shortest?_spec`).
-/

namespace SolidScene.Double

/-! ### The leading place -/

theorem lt_pow_digitCount (n : ℕ) : n < 10 ^ digitCount n :=
  (Nat.length_toDigits_le_iff (by decide) Nat.length_toDigits_pos).1 le_rfl

theorem pow_le_of_lt_digitCount {n k : ℕ} (hn : 0 < n) (hk : k < digitCount n) : 10 ^ k ≤ n := by
  rcases Nat.eq_zero_or_pos k with rfl | hpos
  · exact hn
  · by_contra hlt
    exact absurd ((Nat.length_toDigits_le_iff (by decide) hpos).2 (Nat.lt_of_not_le hlt)) hk.not_ge

theorem digitCount_pos (n : ℕ) : 0 < digitCount n := Nat.length_toDigits_pos

/-- The leading place of a quotient. -/
theorem leadingPlace_spec {num den : ℕ} (hnum : 0 < num) (hden : 0 < den) :
    (10 : ℚ) ^ Decimal.leadingPlace num den ≤ num / den ∧
      (num : ℚ) / den < 10 ^ (Decimal.leadingPlace num den + 1) := by
  have hnum' : (0 : ℚ) < num := by exact_mod_cast hnum
  have hden' : (0 : ℚ) < den := by exact_mod_cast hden
  rw [Decimal.leadingPlace]
  split
  · next hle =>
    obtain ⟨k, hk⟩ := Nat.exists_eq_succ_of_ne_zero (digitCount_pos (num / den)).ne'
    have hlower := pow_le_of_lt_digitCount (Nat.div_pos hle hden) (hk ▸ Nat.lt_succ_self k)
    have hupper := lt_pow_digitCount (num / den)
    rw [hk] at hupper ⊢
    rw [Nat.le_div_iff_mul_le hden] at hlower
    rw [Nat.div_lt_iff_lt_mul hden] at hupper
    rw [show ((k.succ : ℕ) : ℤ) - 1 = k by push_cast; ring, le_div_iff₀ hden', div_lt_iff₀ hden',
      zpow_natCast, ← Nat.cast_succ, zpow_natCast]
    exact ⟨by exact_mod_cast hlower, by exact_mod_cast hupper⟩
  · next hlt =>
    obtain ⟨k, hk⟩ := Nat.exists_eq_succ_of_ne_zero (digitCount_pos ((den - 1) / num)).ne'
    have hlower := pow_le_of_lt_digitCount (Nat.div_pos (by omega) hnum) (hk ▸ Nat.lt_succ_self k)
    have hupper := lt_pow_digitCount ((den - 1) / num)
    rw [hk] at hupper ⊢
    rw [Nat.le_div_iff_mul_le hnum] at hlower
    rw [Nat.div_lt_iff_lt_mul hnum] at hupper
    rw [show -((k.succ : ℕ) : ℤ) + 1 = -k by push_cast; ring, zpow_neg, zpow_neg, zpow_natCast,
      zpow_natCast, inv_le_comm₀ (by positivity) (by positivity), inv_div, div_le_iff₀ hnum',
      lt_inv_comm₀ (by positivity) (by positivity), inv_div, lt_div_iff₀ hnum']
    exact ⟨by exact_mod_cast (by omega : den ≤ 10 ^ k.succ * num),
      by exact_mod_cast (by omega : 10 ^ k * num < den)⟩

/-! ### The grid of decimals -/

section Grid

variable {v : ExactValue} {places : ℤ}

theorem ten_zpow_eq (places : ℤ) :
    (10 : ℚ) ^ places = 10 ^ places.toNat / 10 ^ (-places).toNat := by
  have hsplit : places = places.toNat - (-places).toNat := by omega
  conv_lhs => rw [hsplit]
  rw [zpow_sub₀ (by norm_num), zpow_natCast, zpow_natCast]

/-- The denominator of a double on a grid. -/
def gridDenominator (v : ExactValue) (places : ℤ) : ℕ := v.denominator * 10 ^ (-places).toNat

/-- The numerator of a double on a grid. -/
def gridNumerator (v : ExactValue) (places : ℤ) : ℕ := v.numerator * 10 ^ places.toNat

/-- The step from a double to the next one, counted in parts of a grid. -/
def gridGap (v : ExactValue) (places : ℤ) : ℕ := 2 ^ v.exponent.toNat * 10 ^ places.toNat

theorem gridDenominator_pos (v : ExactValue) (places : ℤ) : 0 < gridDenominator v places :=
  Nat.mul_pos v.denominator_pos (pow_pos (by norm_num) _)

theorem gridNumerator_div (v : ExactValue) (places : ℤ) :
    (gridNumerator v places : ℚ) / gridDenominator v places =
      v.mantissa * 2 ^ v.exponent * 10 ^ places := by
  rw [← numerator_div_denominator, ten_zpow_eq, gridNumerator, gridDenominator]
  push_cast
  rw [mul_div_mul_comm]

theorem gridGap_div (v : ExactValue) (places : ℤ) :
    (gridGap v places : ℚ) / gridDenominator v places = 2 ^ v.exponent * 10 ^ places := by
  have hpower : (2 : ℚ) ^ v.exponent = 2 ^ v.exponent.toNat / v.denominator := by
    have h := numerator_div_denominator ⟨false, 1, v.exponent⟩
    simp only [ExactValue.numerator, Nat.cast_one, one_mul, Nat.pow_eq, Nat.cast_pow,
      Nat.cast_ofNat] at h
    exact h.symm
  rw [hpower, ten_zpow_eq, gridGap, gridDenominator]
  push_cast
  rw [mul_div_mul_comm]

theorem attracts_iff {distance gap : ℕ} :
    v.attracts distance gap ↔
      2 * distance < gap ∨ 2 * distance = gap ∧ v.mantissa % 2 = 0 := by
  rw [ExactValue.attracts, Bool.or_eq_true, Bool.and_eq_true, decide_eq_true_iff, beq_iff_eq,
    beq_iff_eq]

theorem mantissa_of_closerBelow (h : v.closerBelow) : v.mantissa = 2 ^ 52 := by
  rw [ExactValue.closerBelow, Bool.and_eq_true, beq_iff_eq] at h
  exact h.1

theorem neighbour?_eq (tie : Tie) (v : ExactValue) (places : ℤ) :
    Decimal.neighbour? tie v places =
      let low := gridNumerator v places / gridDenominator v places
      let rest := gridNumerator v places % gridDenominator v places
      let lowReads := v.attracts (if v.closerBelow then 2 * rest else rest) (gridGap v places)
      let highReads := v.attracts (gridDenominator v places - rest) (gridGap v places)
      if lowReads && (!highReads || tie.prefersLower low rest (gridDenominator v places)) then
        some ⟨low, -places⟩
      else if highReads then some ⟨low + 1, -places⟩
      else none := rfl

/-- A number that is nearer to the magnitude of a double than to any other: at most half a step
away, where the significand is odd not so far, and below a power of two at most a quarter of a
step. -/
structure RoundsTo (v : ExactValue) (q : ℚ) : Prop where
  two_mul_abs_le : 2 * |q - v.mantissa * 2 ^ v.exponent| ≤ 2 ^ v.exponent
  even_of_eq : 2 * |q - v.mantissa * 2 ^ v.exponent| = 2 ^ v.exponent → v.mantissa % 2 = 0
  four_mul_sub_le : v.closerBelow → 4 * (v.mantissa * 2 ^ v.exponent - q) ≤ 2 ^ v.exponent

theorem RoundsTo.abs_sub_le {q : ℚ} (h : RoundsTo v q) :
    |q - v.mantissa * 2 ^ v.exponent| ≤ 2 ^ v.exponent / 2 := by
  linarith [h.two_mul_abs_le]

/-- Distances from a double are told on the grid, where they are natural numbers. -/
theorem roundsTo_of_grid {d : Decimal} (hexponent : d.exponent = -places) {distance : ℤ}
    (hdistance : (d.digits * gridDenominator v places : ℤ) - gridNumerator v places = distance)
    (hle : 2 * |distance| ≤ gridGap v places)
    (heven : 2 * |distance| = gridGap v places → v.mantissa % 2 = 0)
    (hcloser : v.closerBelow → 4 * -distance ≤ gridGap v places) : RoundsTo v d.toRat := by
  have hten := ten_zpow_pos places
  have hden : (0 : ℚ) < gridDenominator v places := by exact_mod_cast gridDenominator_pos v places
  obtain ⟨c, hc⟩ : ∃ c : ℚ, (10 : ℚ) ^ places * gridDenominator v places = c := ⟨_, rfl⟩
  have hpos : 0 < c := hc ▸ mul_pos hten hden
  have hgap : 2 ^ v.exponent * c = gridGap v places := by
    rw [← hc, ← mul_assoc, ← gridGap_div, div_mul_cancel₀ _ hden.ne']
  have hscaled : (d.toRat - v.mantissa * 2 ^ v.exponent) * c = distance := by
    have hdigits : d.toRat * 10 ^ places = d.digits := by
      rw [Decimal.toRat, hexponent, zpow_neg, inv_mul_cancel_right₀ hten.ne']
    rw [← hdistance, ← hc, sub_mul, ← mul_assoc, ← mul_assoc, hdigits, ← gridNumerator_div,
      div_mul_cancel₀ _ hden.ne']
    push_cast
    rfl
  have habs : |d.toRat - v.mantissa * 2 ^ v.exponent| * c = (|distance| : ℤ) := by
    rw [Int.cast_abs, ← hscaled, abs_mul, abs_of_pos hpos]
  constructor
  · refine le_of_mul_le_mul_right ?_ hpos
    rw [mul_assoc, habs, hgap]
    exact_mod_cast hle
  · intro heq
    refine heven ?_
    have hsame := congrArg (· * c) heq
    simp only [mul_assoc, habs, hgap] at hsame
    exact_mod_cast hsame
  · intro hbelow
    have hfour : (4 : ℚ) * -distance ≤ gridGap v places := by exact_mod_cast hcloser hbelow
    refine le_of_mul_le_mul_right ?_ hpos
    rw [← hscaled] at hfour
    rw [hgap]
    linarith

/-- A neighbour is one of the two decimals around the double, and rounds to it. -/
theorem neighbour?_spec {tie : Tie} {d : Decimal} (h : Decimal.neighbour? tie v places = some d) :
    d.exponent = -places ∧
      gridNumerator v places / gridDenominator v places ≤ d.digits ∧
      d.digits ≤ gridNumerator v places / gridDenominator v places + 1 ∧
      RoundsTo v d.toRat := by
  have hsplit := Nat.div_add_mod' (gridNumerator v places) (gridDenominator v places)
  have hrest := Nat.mod_lt (gridNumerator v places) (gridDenominator_pos v places)
  rw [neighbour?_eq] at h
  generalize hlow : gridNumerator v places / gridDenominator v places = low at h hsplit ⊢
  generalize gridNumerator v places % gridDenominator v places = rest at h hsplit hrest
  simp only at h
  generalize hlowReads : v.attracts (if v.closerBelow then 2 * rest else rest) _ = lowReads at h
  generalize hhighReads : v.attracts (_ - rest) _ = highReads at h
  split at h
  · next hreads =>
    obtain rfl := Option.some.inj h
    have hattracts := attracts_iff.1 (hlowReads.trans (Bool.and_eq_true_iff.1 hreads).1)
    have hdistance : (low * gridDenominator v places : ℤ) - gridNumerator v places =
        -(rest : ℤ) := by
      rw [← hsplit]
      push_cast
      ring
    refine ⟨rfl, le_rfl, Nat.le_succ _, roundsTo_of_grid rfl hdistance ?_ ?_ ?_⟩
    · rw [abs_neg, Nat.abs_cast]
      split at hattracts <;> omega
    · intro heq
      rw [abs_neg, Nat.abs_cast] at heq
      split at hattracts
      · next hcloser =>
        rw [mantissa_of_closerBelow hcloser]
        decide
      · omega
    · intro hcloser
      rw [if_pos hcloser] at hattracts
      omega
  split at h
  · next _ hreads =>
    obtain rfl := Option.some.inj h
    have hattracts := attracts_iff.1 (hhighReads.trans hreads)
    have hdistance : ((low + 1 : ℕ) * gridDenominator v places : ℤ) - gridNumerator v places =
        (gridDenominator v places - rest : ℕ) := by
      rw [← hsplit, Nat.cast_sub hrest.le]
      push_cast
      ring
    refine ⟨rfl, Nat.le_succ _, le_rfl, roundsTo_of_grid rfl hdistance ?_ ?_ ?_⟩
    · rw [Nat.abs_cast]
      omega
    · intro heq
      rw [Nat.abs_cast] at heq
      omega
    · intro _
      omega
  · cases h

/-- Where the decimals lie closer together than the doubles, one of the two around a double rounds
to it. -/
theorem isSome_neighbour? (tie : Tie) (hm : v.mantissa < 2 ^ 53)
    (h : gridDenominator v places * 10 ^ 16 ≤ v.mantissa * gridGap v places) :
    (Decimal.neighbour? tie v places).isSome := by
  have hden := gridDenominator_pos v places
  have hrest := Nat.mod_lt (gridNumerator v places) hden
  rw [neighbour?_eq]
  generalize gridNumerator v places / gridDenominator v places = low
  generalize gridNumerator v places % gridDenominator v places = rest at hrest ⊢
  generalize gridDenominator v places = den at *
  generalize gridGap v places = gap at *
  have hgap : den < gap := by nlinarith
  have hreads : v.attracts (if v.closerBelow then 2 * rest else rest) gap ∨
      v.attracts (den - rest) gap := by
    rcases Nat.le_total (2 * rest) den with hle | hle
    · left
      refine attracts_iff.2 (.inl ?_)
      split
      · next hcloser =>
        -- Just above a power of two the decimals lie twice as close together.
        rw [mantissa_of_closerBelow hcloser] at h
        omega
      · omega
    · right
      refine attracts_iff.2 (.inl ?_)
      omega
  simp only
  generalize v.attracts (if v.closerBelow then 2 * rest else rest) gap = lowReads at hreads ⊢
  generalize v.attracts (den - rest) gap = highReads at hreads ⊢
  split
  · rfl
  split
  · rfl
  · next hlow hhigh =>
    obtain rfl := hreads.resolve_right hhigh
    rw [Bool.not_eq_true] at hhigh
    subst hhigh
    exact absurd rfl hlow

end Grid

/-! ### The shortest decimal -/

section Shortest

variable {x : Float} {v : ExactValue} {tie : Tie}

/-- On the grid of `n + 1` digits a double has so many digits before the point. -/
theorem gridNumerator_bounds (hm : 0 < v.mantissa) (n : ℕ) :
    10 ^ n ≤ gridNumerator v (n - Decimal.leadingPlace v.numerator v.denominator) /
        gridDenominator v (n - Decimal.leadingPlace v.numerator v.denominator) ∧
      gridNumerator v (n - Decimal.leadingPlace v.numerator v.denominator) /
        gridDenominator v (n - Decimal.leadingPlace v.numerator v.denominator) < 10 ^ (n + 1) := by
  have hnumerator : 0 < v.numerator := Nat.mul_pos hm (Nat.two_pow_pos _)
  obtain ⟨hlower, hupper⟩ := leadingPlace_spec hnumerator v.denominator_pos
  rw [numerator_div_denominator] at hlower hupper
  generalize Decimal.leadingPlace v.numerator v.denominator = place at hlower hupper ⊢
  have hten := ten_zpow_pos (n - place)
  have hden := gridDenominator_pos v (n - place)
  have hden' : (0 : ℚ) < gridDenominator v (n - place) := by exact_mod_cast hden
  have hquotient := gridNumerator_div v (n - place)
  rw [Nat.le_div_iff_mul_le hden, Nat.div_lt_iff_lt_mul hden]
  constructor
  · have hle : (10 : ℚ) ^ n ≤ gridNumerator v (n - place) / gridDenominator v (n - place) := by
      calc (10 : ℚ) ^ n = 10 ^ place * 10 ^ (n - place) := by
            rw [← zpow_add₀ (by norm_num), add_sub_cancel, zpow_natCast]
        _ ≤ _ := hquotient ▸ mul_le_mul_of_nonneg_right hlower hten.le
    rw [le_div_iff₀ hden'] at hle
    exact_mod_cast hle
  · have hlt :
        (gridNumerator v (n - place) : ℚ) / gridDenominator v (n - place) < 10 ^ (n + 1) := by
      calc _ < (10 : ℚ) ^ (place + 1) * 10 ^ (n - place) :=
            hquotient ▸ mul_lt_mul_of_pos_right hupper hten
        _ = 10 ^ (n + 1) := by
            rw [← zpow_add₀ (by norm_num),
              show place + 1 + (n - place) = (n + 1 : ℕ) by push_cast; ring, zpow_natCast]
    rw [div_lt_iff₀ hden'] at hlt
    exact_mod_cast hlt

/-- On the grid of seventeen digits the decimals lie closer together than the doubles. -/
theorem gridDenominator_mul_le (hm : 0 < v.mantissa) :
    gridDenominator v ((16 : ℕ) - Decimal.leadingPlace v.numerator v.denominator) * 10 ^ 16 ≤
      v.mantissa *
        gridGap v ((16 : ℕ) - Decimal.leadingPlace v.numerator v.denominator) := by
  have hbound := (gridNumerator_bounds hm 16).1
  generalize ((16 : ℕ) : ℤ) - Decimal.leadingPlace v.numerator v.denominator = places at hbound ⊢
  have hden := gridDenominator_pos v places
  have hgap : gridNumerator v places = v.mantissa * gridGap v places := by
    rw [gridNumerator, gridGap, ExactValue.numerator, Nat.pow_eq, mul_assoc]
  rw [Nat.le_div_iff_mul_le hden, hgap, mul_comm] at hbound
  exact hbound

theorem isCanonical_of_ofFloat? (h : ExactValue.ofFloat? x = some v) (hm : 0 < v.mantissa) :
    IsCanonical v.mantissa v.exponent ∧ v.exponent ≤ 971 := by
  unfold ExactValue.ofFloat? at h
  split at h
  · next hunpack =>
    obtain rfl := Option.some.inj h
    exact isCanonical_of_unpack_eq hunpack
  · next hunpack =>
    obtain rfl := Option.some.inj h
    exact isCanonical_of_unpack_eq hunpack
  · obtain rfl := Option.some.inj h
    cases hm
  · obtain rfl := Option.some.inj h
    cases hm
  · cases h
  · cases h

/-- **The shortest decimal** of a double rounds to it and has at most seventeen digits, or is a
power of ten. -/
theorem shortest?_spec (tie : Tie) (h : ExactValue.ofFloat? x = some v) (hm : 0 < v.mantissa) :
    ∃ d, Decimal.shortest? tie x = some d ∧ 0 < d.digits ∧ d.digits ≤ 10 ^ 17 ∧
      RoundsTo v d.toRat := by
  have hcanonical := (isCanonical_of_ofFloat? h hm).1
  have hlast := isSome_neighbour? tie hcanonical.lt_two_pow (gridDenominator_mul_le hm)
  have hbounds := gridNumerator_bounds hm
  rw [Decimal.shortest?, h, Option.map_some, if_neg hm.ne']
  generalize Decimal.leadingPlace v.numerator v.denominator = place at hlast hbounds ⊢
  obtain ⟨d, hd⟩ : ∃ d, (List.range Decimal.mostDigits).findSome?
      (fun (n : ℕ) => Decimal.neighbour? tie v (n - place)) = some d := by
    rw [← Option.isSome_iff_exists, List.findSome?_isSome_iff]
    exact ⟨16, List.mem_range.2 (by decide), hlast⟩
  obtain ⟨n, hn, hneighbour⟩ := List.exists_of_findSome?_eq_some hd
  obtain ⟨-, hfloor, hceil, hclose⟩ := neighbour?_spec hneighbour
  obtain ⟨hlower, hupper⟩ := hbounds n
  have hpos : 0 < 10 ^ n := pow_pos (by norm_num) n
  have hmost : 10 ^ (n + 1) ≤ 10 ^ 17 := Nat.pow_le_pow_right (by norm_num) (List.mem_range.1 hn)
  refine ⟨d, ?_, by omega, by omega, hclose⟩
  simp only [hd, Option.getD_some]

end Shortest

end SolidScene.Double
